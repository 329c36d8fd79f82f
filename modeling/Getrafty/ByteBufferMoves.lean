import Getrafty.ByteBufferFifo

set_option autoImplicit false

namespace Getrafty

open Transition (Exec Of Guarded)
open Words (addSize addSize_eq bytesLE)

/-- A call on buffers, or a copy or move of one. A vector that is copied may need memory; one that
is moved leaves its source empty. -/
inductive ObjectOp (ι : Type) where
  | call (op : QueueOp ι)
  | copyConstruct (i src : ι) (granted : Bool)
  | copyAssign (i src : ι) (granted : Bool)
  | move (i src : ι)

namespace ByteBuf

/-- `r_`, `w_` and `data_` in bounds of each other. -/
def Sound (b : ByteBuf) : Prop := b.r ≤ b.w ∧ b.w ≤ b.data.length

instance (b : ByteBuf) : Decidable b.Sound := inferInstanceAs (Decidable (_ ∧ _))

/-- A buffer that was moved from: the compiler copies the numbers and moves the vector. -/
def movedFrom (b : ByteBuf) : ByteBuf := { b with data := [] }

/-- Member by member; the vector is assigned last and may throw if it has to grow. -/
def copyAssign (b src : ByteBuf) (granted : Bool) : ByteBuf :=
  if granted = true ∨ src.data.length ≤ b.data.length then src else { src with data := b.data }

/-- `w_ + n` wraps, and the vector is resized to the rest. -/
def Cuts (b : ByteBuf) (n : Nat) (alloc : Allocator) : Prop :=
  2 ^ 64 ≤ b.w + n ∧ alloc.Resizes (b.w + n - 2 ^ 64)

instance (b : ByteBuf) (n : Nat) (alloc : Allocator) : Decidable (b.Cuts n alloc) :=
  inferInstanceAs (Decidable (_ ∧ _))

end ByteBuf

namespace Family

variable {ι : Type} [DecidableEq ι]

/-- A call, a copy or a move; construction is seen as assignment to an object nobody uses yet. -/
def objectStep (f : Family ι) : ObjectOp ι → Option (Family ι)
  | .call op => f.step op
  | .copyConstruct i src granted => some (if granted = true then f.put i (f.buf src) else f)
  | .copyAssign i src granted => some (f.put i ((f.buf i).copyAssign (f.buf src) granted))
  | .move i src => some ((f.put i (f.buf src)).put src (f.buf src).movedFrom)

/-- What is moved from was never written to or is drained, what grows does not wrap, and a copy that
finds no memory leaves no index beyond the old vector. -/
def KeepsSound (f : Family ι) : ObjectOp ι → Prop
  | .call (.writeRaw i bytes) => ¬ (f.buf i).Cuts bytes.length f.alloc
  | .call (.reserve i n) => ¬ (f.buf i).Cuts n f.alloc
  | .copyAssign i src granted => granted = true ∨ (f.buf src).w ≤ (f.buf i).data.length
  | .move _ src => (f.buf src).w = 0
  | _ => True

instance (f : Family ι) (op : ObjectOp ι) : Decidable (f.KeepsSound op) :=
  match op with
  | .call (.writeRaw _ _) => inferInstanceAs (Decidable (¬ _))
  | .call (.reserve _ _) => inferInstanceAs (Decidable (¬ _))
  | .copyAssign _ _ _ => inferInstanceAs (Decidable (_ ∨ _))
  | .move _ _ => inferInstanceAs (Decidable (_ = _))
  | .copyConstruct _ _ _ | .call (.write _ _ _) | .call (.read _ _ _) | .call (.peek _ _)
  | .call (.headroom _) | .call (.advance _ _) | .call (.fill _ _) | .call (.readUI32 _)
  | .call (.writeUI32 _ _) => isTrue trivial

/-- Every object is in bounds, and so was every byte that a call went through. -/
def InBounds (f : Family ι) : Prop := (∀ i, (f.buf i).Sound) ∧ ∀ s ∈ f.spans, s.Inside

end Family

namespace ByteBuf

section Reserve

variable {b src dst : ByteBuf} {n : Nat} {alloc : Allocator}

theorem WF.sound (wf : b.WF) : b.Sound := ⟨wf.ordered, wf.inside⟩

/-- `reserve` that does not cut makes room, or changes nothing. -/
theorem WF.reserve_kept (wf : b.WF) (range : n < 2 ^ 64) (kept : ¬ b.Cuts n alloc) :
    (b.Room n alloc ∧ (b.reserve n alloc).2.1.WF) ∨
      ∃ alloc', b.reserve n alloc = (false, b, alloc') := by
  have inside := wf.inside
  have bounded := wf.bounded
  have below : maxSize < 2 ^ 64 := by decide
  rcases Nat.lt_or_ge maxSize n with large | small
  · have short : ¬ n ≤ b.writableBytes := by
      rw [wf.writableBytes_eq]
      omega
    rcases reserve_short short alloc with ⟨resizes, -⟩ | ⟨-, refused⟩
    · have fits : b.w + n < 2 ^ 64 := by
        by_contra wraps
        have sum : addSize b.w n = b.w + n - 2 ^ 64 := by
          have range_eq : Words.sizeRange = 2 ^ 64 := rfl
          rw [addSize, range_eq, Nat.mod_eq_sub_mod (Nat.not_lt.mp wraps)]
          exact Nat.mod_eq_of_lt (by omega)
        exact kept ⟨Nat.not_lt.mp wraps, sum ▸ resizes⟩
      rw [addSize_eq fits] at resizes
      have most := resizes.1
      omega
    · exact Or.inr refused
  · rcases wf.reserve_cases small alloc with
      ⟨grown, alloc', ok, wf', -⟩ | ⟨alloc', threw, -⟩
    · refine Or.inl ⟨(wf.reserve_room small alloc).mp (by rw [ok]), ?_⟩
      rw [ok]
      exact wf'
    · exact Or.inr ⟨alloc', threw⟩

theorem reserve_resized (short : ¬ n ≤ b.writableBytes) {size : Nat} (sum : addSize b.w n = size)
    (resizes : alloc.Resizes size) : (b.reserve n alloc).1 = true ∧
      (b.reserve n alloc).2.1.w = b.w ∧ (b.reserve n alloc).2.1.data.length = size := by
  rcases reserve_short short alloc with ⟨-, alloc', resized⟩ | ⟨refused, -⟩
  · rw [sum] at resized
    rw [resized]
    exact ⟨rfl, rfl, resized_length b.data size⟩
  · exact absurd (sum ▸ resizes) refused

/-- `reserve` that cuts leaves `w_` beyond the vector. -/
theorem WF.reserve_cut (wf : b.WF) (range : n < 2 ^ 64) (cuts : b.Cuts n alloc) :
    (b.reserve n alloc).1 = true ∧ (b.reserve n alloc).2.1.w = b.w ∧
      (b.reserve n alloc).2.1.data.length < b.w := by
  have inside := wf.inside
  have bounded := wf.bounded
  have below : 2 * maxSize < 2 ^ 64 := by decide
  obtain ⟨wraps, resizes⟩ := cuts
  have short : ¬ n ≤ b.writableBytes := by
    rw [wf.writableBytes_eq]
    omega
  have sum : addSize b.w n = b.w + n - 2 ^ 64 := by
    have range_eq : Words.sizeRange = 2 ^ 64 := rfl
    rw [addSize, range_eq, Nat.mod_eq_sub_mod wraps]
    exact Nat.mod_eq_of_lt (by omega)
  obtain ⟨ok, w, length⟩ := reserve_resized short sum resizes
  refine ⟨ok, w, ?_⟩
  omega

/-- A transfer moves what it can if there is room, and nothing otherwise. -/
theorem transfer_wf (wfSrc : src.WF) (wfDst : dst.WF) (n : Nat) (alloc : Allocator) :
    (transfer src dst n alloc).src.WF ∧ (transfer src dst n alloc).dst.WF := by
  rcases transfer_cases wfSrc wfDst n alloc with moves | ⟨alloc', same, -⟩
  · exact ⟨moves.wfSrc, moves.wfDst⟩
  · rw [same]
    exact ⟨wfSrc, wfDst⟩

/-- What is appended goes behind `w_`. -/
theorem mem_appended (ok : (b.reserve n alloc).1 = true) (some : n ≠ 0) :
    ⟨(b.reserve n alloc).2.1.w, n, (b.reserve n alloc).2.1.data.length⟩ ∈ b.appended n alloc := by
  unfold appended
  split
  · rename_i grown alloc' eq
    rw [eq, back, if_neg some]
    exact List.mem_singleton.mpr rfl
  · rename_i eq
    rw [eq] at ok
    cases ok

/-- Nothing is appended where there is no room. -/
theorem WF.appended_kept (wf : b.WF) (range : n < 2 ^ 64) (kept : ¬ b.Cuts n alloc) :
    ∀ s ∈ b.appended n alloc, s.Inside := by
  rcases wf.reserve_kept range kept with ⟨room, -⟩ | ⟨alloc', refused⟩
  · exact wf.appended_inside room
  · intro s member
    rw [appended, refused] at member
    cases member

theorem WF.not_cuts (wf : b.WF) (small : n ≤ maxSize) : ¬ b.Cuts n alloc := by
  have inside := wf.inside
  have bounded := wf.bounded
  have below : 2 * maxSize < 2 ^ 64 := by decide
  intro cuts
  have wraps := cuts.1
  omega

theorem small_range (small : n ≤ maxSize) : n < 2 ^ 64 := Nat.lt_of_le_of_lt small (by decide)

theorem WF.reserve_wf (wf : b.WF) (range : n < 2 ^ 64) (kept : ¬ b.Cuts n alloc) :
    (b.reserve n alloc).2.1.WF := by
  rcases wf.reserve_kept range kept with ⟨-, wf'⟩ | ⟨alloc', refused⟩
  · exact wf'
  · rw [refused]
    exact wf

theorem WF.writeRaw_wf (wf : b.WF) {bytes : List UInt8} (range : bytes.length < 2 ^ 64)
    (kept : ¬ b.Cuts bytes.length alloc) : (b.writeRaw bytes alloc).2.1.WF := by
  rcases wf.reserve_kept range kept with ⟨room, -⟩ | ⟨alloc', refused⟩
  · obtain ⟨after, alloc', ok, wf', -⟩ := wf.writeRaw_room bytes room
    rw [ok]
    exact wf'
  · unfold writeRaw
    split
    · exact wf
    · rw [refused]
      exact wf

theorem WF.writeSelf_wf (wf : b.WF) (n : Nat) : (b.writeSelf n alloc).1.WF := by
  have small : min n b.content.length ≤ maxSize := (Nat.min_le_right _ _).trans wf.content_le
  have kept : ¬ b.Cuts (min n b.content.length) alloc := wf.not_cuts small
  rcases wf.reserve_kept (small_range small) kept with
    ⟨room, -⟩ | ⟨alloc', refused⟩
  · exact (wf.writeSelf_room room).1
  · unfold writeSelf
    rw [wf.readableBytes_eq]
    dsimp only
    split
    · exact wf
    · rw [refused]
      exact wf

theorem WF.readUI32_wf (wf : b.WF) {word : Nat} {after : ByteBuf}
    (read : b.readUI32 = some (word, after)) : after.WF := by
  by_cases few : b.content.length < 4
  · rw [wf.readUI32_none few] at read
    cases read
  · match head : b.content, Nat.le_of_not_lt few with
    | b0 :: b1 :: b2 :: b3 :: rest, _ =>
        obtain ⟨after', read', wf', -⟩ := wf.readUI32_some head
        rw [read', Option.some.injEq, Prod.mk.injEq] at read
        exact read.2 ▸ wf'

end Reserve

end ByteBuf

namespace Family

variable {ι : Type} [DecidableEq ι]

section Steps

variable {f f' : Family ι} {op : QueueOp ι} {i : ι}

theorem put_wf (wf : ∀ i, (f.buf i).WF) {b : ByteBuf} (new : b.WF) (j : ι) :
    ((f.put i b).buf j).WF := by
  show (Function.update f.buf i b j).WF
  by_cases same : j = i
  · rw [same, Function.update_self]
    exact new
  · rw [Function.update_of_ne same]
    exact wf j

theorem transfer_wf (wf : ∀ i, (f.buf i).WF) (src dst : ι) (n : Nat) (j : ι) :
    ((f.transfer src dst n).buf j).WF := by
  obtain ⟨wfSrc, wfDst⟩ := ByteBuf.transfer_wf (wf src) (wf dst) n f.alloc
  exact put_wf (put_wf wf wfSrc) wfDst j

/-- A call whose growth does not wrap keeps every buffer well formed. -/
theorem call_wf (wf : ∀ i, (f.buf i).WF) (possible : f.Possible op)
    (keeps : f.KeepsSound (.call op)) (j : ι) : ((f.call op).buf j).WF := by
  cases op with
  | writeRaw i bytes => exact put_wf wf ((wf i).writeRaw_wf possible keeps) j
  | write i src n =>
      by_cases same : i = src
      · have buf : ((f.write i src n).buf j) = (f.writeSelf i n).buf j := by
          rw [Family.write, if_pos same]
          rfl
        rw [call, buf]
        exact put_wf wf ((wf i).writeSelf_wf n) j
      · have buf : ((f.write i src n).buf j) = (f.transfer src i n).buf j := by
          rw [Family.write, if_neg same]
          rfl
        rw [call, buf]
        exact transfer_wf wf src i n j
  | read i dst n =>
      rw [call, Family.read]
      split
      · exact wf j
      · exact transfer_wf wf i dst n j
  | peek i n => exact wf j
  | headroom i => exact wf j
  | advance i n => exact put_wf wf ((wf i).advance n) j
  | reserve i n => exact put_wf wf ((wf i).reserve_wf possible keeps) j
  | fill i bytes =>
      have inside := (wf i).inside
      have fits := possible
      simp only [Possible] at fits
      have filled := (wf i).fill_eq fits
      rw [(wf i).writableBytes_eq] at fits
      have stored : ((f.buf i).fill bytes).2.WF := by
        rw [filled]
        exact (wf i).store (by omega)
      exact put_wf wf stored j
  | readUI32 i =>
      rw [call, Family.readUI32]
      cases read : (f.buf i).readUI32 with
      | none => exact wf j
      | some pair => exact put_wf wf ((wf i).readUI32_wf read) j
  | writeUI32 i word =>
      have small : (bytesLE word).length ≤ maxSize := by
        rw [Words.bytesLE_length]
        decide
      exact put_wf wf ((wf i).writeRaw_wf (ByteBuf.small_range small) ((wf i).not_cuts small)) j

theorem call_inside (wf : ∀ i, (f.buf i).WF) (possible : f.Possible op)
    (keeps : f.KeepsSound (.call op)) : ∀ s ∈ f.touched op, s.Inside := by
  have readable (i : ι) := (wf i).readableBytes_eq
  have within (i : ι) (n : Nat) : min n (f.buf i).readableBytes ≤ (f.buf i).content.length := by
    rw [readable]
    exact Nat.min_le_right _ _
  have small (i : ι) (n : Nat) : min n (f.buf i).readableBytes ≤ maxSize :=
    (within i n).trans (wf i).content_le
  have appended (i j : ι) (n : Nat) :
      ∀ s ∈ (f.buf i).appended (min n (f.buf j).readableBytes) f.alloc, s.Inside :=
    (wf i).appended_kept (ByteBuf.small_range (small j n)) ((wf i).not_cuts (small j n))
  cases op with
  | writeRaw i bytes => exact (wf i).appended_kept possible keeps
  | write i src n =>
      intro s member
      rcases List.mem_append.mp member with there | here
      · exact appended i src n s there
      · by_cases same : i = src
        · rw [if_pos same] at here
          have reserved := (wf i).reserve_cases (small src n) f.alloc
          rcases reserved with ⟨grown, alloc', ok, wf', -, content, -⟩ | ⟨alloc', refused, -⟩
          · rw [ok] at here
            refine wf'.taken_inside ?_ s here
            rw [content, same]
            exact within src n
          · rw [refused] at here
            refine (wf i).taken_inside ?_ s here
            rw [same]
            exact within src n
        · rw [if_neg same] at here
          exact (wf src).taken_inside (within src n) s here
  | read i dst n =>
      intro s member
      simp only [touched] at member
      split at member
      · cases member
      · rcases List.mem_append.mp member with there | here
        · exact appended dst i n s there
        · exact (wf i).taken_inside (within i n) s here
  | peek i n => exact (wf i).front_inside (within i n)
  | headroom i => exact (wf i).front_inside (readable i).le
  | advance i n =>
      intro s member
      cases member
  | reserve i n =>
      intro s member
      cases member
  | fill i bytes =>
      apply ByteBuf.back_inside
      rw [(wf i).writableBytes_eq]
      have inside := (wf i).inside
      omega
  | readUI32 i =>
      intro s member
      simp only [touched] at member
      split at member
      · cases member
      · exact (wf i).front_inside (within i 4) s member
  | writeUI32 i word =>
      have four : 4 ≤ maxSize := by decide
      exact (wf i).appended_kept (ByteBuf.small_range four) ((wf i).not_cuts four)

/-- A step that the guard allows keeps every object well formed, and itself in bounds. -/
theorem objectStep_kept {op : ObjectOp ι} (wf : ∀ i, (f.buf i).WF)
    (inside : ∀ s ∈ f.spans, s.Inside)
    (keeps : f.KeepsSound op) (taken : f.objectStep op = some f') :
    (∀ i, (f'.buf i).WF) ∧ ∀ s ∈ f'.spans, s.Inside := by
  cases op with
  | call op =>
      obtain ⟨possible, ⟨⟩⟩ := Option.ite_none_right_eq_some.mp taken
      refine ⟨call_wf wf possible keeps, fun s member => ?_⟩
      rcases List.mem_append.mp member with earlier | last
      · exact inside s earlier
      · exact call_inside wf possible keeps s last
  | copyConstruct i src granted =>
      obtain rfl := Option.some.inj taken
      split
      · exact ⟨put_wf wf (wf src), inside⟩
      · exact ⟨wf, inside⟩
  | copyAssign i src granted =>
      obtain rfl := Option.some.inj taken
      refine ⟨put_wf wf ?_, inside⟩
      unfold ByteBuf.copyAssign
      split
      · exact wf src
      · rename_i threw
        have within := keeps.resolve_left fun granted => threw (Or.inl granted)
        exact ⟨(wf src).ordered, within, (wf i).bounded⟩
  | move i src =>
      obtain rfl := Option.some.inj taken
      have none : (f.buf src).w = 0 := keeps
      refine ⟨put_wf (put_wf wf (wf src)) ⟨(wf src).ordered, ?_, Nat.zero_le _⟩, inside⟩
      exact none.le

/-- A step that the guard forbids leaves an object, or itself, out of bounds. -/
theorem objectStep_broken {op : ObjectOp ι} (wf : ∀ i, (f.buf i).WF) (breaks : ¬ f.KeepsSound op)
    (taken : f.objectStep op = some f') : ¬ f'.InBounds := by
  rintro ⟨sound, inside⟩
  have here (i : ι) (b : ByteBuf) (same : f'.buf i = b) : b.Sound := same ▸ sound i
  match op with
  | .call (.writeRaw i bytes) =>
      obtain ⟨possible, ⟨⟩⟩ := Option.ite_none_right_eq_some.mp taken
      have cuts : (f.buf i).Cuts bytes.length f.alloc := not_not.mp breaks
      obtain ⟨ok, w, short⟩ := (wf i).reserve_cut possible cuts
      have some : bytes.length ≠ 0 := by
        have wraps := cuts.1
        have bounded := (wf i).bounded
        have within := (wf i).inside
        have below : maxSize < 2 ^ 64 := by decide
        omega
      have member := inside _ (List.mem_append_right _ (ByteBuf.mem_appended ok some))
      have beyond : ((f.buf i).reserve bytes.length f.alloc).2.1.w + bytes.length ≤
          ((f.buf i).reserve bytes.length f.alloc).2.1.data.length := member
      omega
  | .call (.reserve i n) =>
      obtain ⟨possible, ⟨⟩⟩ := Option.ite_none_right_eq_some.mp taken
      obtain ⟨-, w, short⟩ := (wf i).reserve_cut possible (not_not.mp breaks)
      have cut := here i ((f.buf i).reserve n f.alloc).2.1 (Function.update_self _ _ _)
      have within := cut.2
      omega
  | .copyAssign i src granted =>
      obtain rfl := Option.some.inj taken
      have copied := here i ((f.buf i).copyAssign (f.buf src) granted) (Function.update_self _ _ _)
      obtain ⟨refused, beyond⟩ := not_or.mp breaks
      have within := (wf src).inside
      have threw : ¬ (granted = true ∨ (f.buf src).data.length ≤ (f.buf i).data.length) := by
        rintro (granted | fits)
        · exact refused granted
        · omega
      rw [ByteBuf.copyAssign, if_neg threw] at copied
      exact beyond copied.2
  | .move i src =>
      obtain rfl := Option.some.inj taken
      have left := here src (f.buf src).movedFrom (Function.update_self _ _ _)
      exact breaks (Nat.le_zero.mp left.2)
  | .copyConstruct _ _ _ | .call (.write _ _ _) | .call (.read _ _ _) | .call (.peek _ _)
  | .call (.headroom _) | .call (.advance _ _) | .call (.fill _ _) | .call (.readUI32 _)
  | .call (.writeUI32 _ _) => exact breaks trivial

/-- In every state of a run all objects, also those that were moved from, and all calls were in
bounds exactly when each of its steps keeps them so. -/
theorem inBounds_iff_keepsSound {alloc : Allocator} {ops : List (ObjectOp ι)}
    (run : Exec (Of objectStep) { alloc } ops f) :
    (∀ front back g, ops = front ++ back → Exec (Of objectStep) { alloc } front g → g.InBounds) ↔
      Exec (Guarded KeepsSound (Of objectStep)) { alloc } ops f := by
  refine run.always_iff InBounds
    ⟨fun i => ByteBuf.WF.empty.sound, fun s member => by cases member⟩ ?_
  intro ops f op f' before taken
  have kept := before.invariant (fun f => (∀ i, (f.buf i).WF) ∧ ∀ s ∈ f.spans, s.Inside)
    ⟨fun i => .empty, fun s member => by cases member⟩
    fun f op f' kept taken => objectStep_kept kept.1 kept.2 taken.1 taken.2
  constructor
  · intro bounds
    by_contra breaks
    exact objectStep_broken kept.1 breaks taken bounds
  · intro keeps
    obtain ⟨wf, inside⟩ := objectStep_kept kept.1 kept.2 keeps taken
    exact ⟨fun i => (wf i).sound, inside⟩

end Steps

/-- A buffer that is drained before it is moved. -/
theorem inBounds_iff_keepsSound_drained : ∃ (ops : List (ObjectOp Bool)) (f : Family Bool),
    ops.length = 4 ∧ Exec (Of objectStep) { alloc := .unlimited } ops f ∧
      ∀ front back g, ops = front ++ back → Exec (Of objectStep) { alloc := .unlimited } front g →
        g.InBounds := by
  have runs : (Transition.run (Transition.guardedStep
      (fun (f : Family Bool) op => decide (f.KeepsSound op)) objectStep) { alloc := .unlimited }
      [.call (.writeRaw true [7, 8]), .call (.advance true 2), .move false true,
        .call (.headroom true)]).isSome = true := by decide +kernel
  have kept := Transition.guarded_of_isSome runs
  exact ⟨_, _, rfl, kept.unguarded, (inBounds_iff_keepsSound kept.unguarded).mpr kept⟩

/-- A buffer that is moved while it holds a byte still counts it. -/
theorem moved_counts_byte : ¬ ∀ (ops : List (ObjectOp Bool)) (f : Family Bool),
    Exec (Of objectStep) { alloc := .unlimited } ops f → f.InBounds := by
  intro bounds
  have runs : (Transition.run (objectStep (ι := Bool)) { alloc := .unlimited }
      [.call (.writeRaw true [7]), .move false true]).isSome = true := by decide +kernel
  have sound := (bounds _ _ (Transition.exec_of_isSome runs)).1 true
  clear bounds
  revert runs sound
  decide +kernel

end Family

end Getrafty
