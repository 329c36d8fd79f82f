import Getrafty.EventWatcher

set_option autoImplicit false

namespace Getrafty

variable {κ : Type}

theorem kBlockSize_eq : kBlockSize = 64 := rfl

namespace FdWatchMap

theorem getBlockAndIndex_injective {fd other : Nat}
    (same : getBlockAndIndex fd = getBlockAndIndex other) : fd = other := by
  have block := congrArg (·.1) same
  have offset := congrArg (·.2.val) same
  simp only [getBlockAndIndex, kBlockSize_eq] at block offset
  omega

theorem entry_empty (fd : Nat) : ({} : FdWatchMap κ).entry fd = {} := by
  simp only [entry, slots, AList.lookup_empty, Option.getD_none]

@[simp] theorem entry_assign (map : FdWatchMap κ) (fd : Nat) (value : WatchEntry κ) :
    (map.assign fd value).entry fd = value := by
  simp only [entry, slots, assign, AList.lookup_insert, Option.getD_some, Function.update_self]

theorem entry_assign_ne (map : FdWatchMap κ) {fd other : Nat} (apart : other ≠ fd)
    (value : WatchEntry κ) : (map.assign fd value).entry other = map.entry other := by
  by_cases block : (getBlockAndIndex other).1 = (getBlockAndIndex fd).1
  · have offset : (getBlockAndIndex other).2 ≠ (getBlockAndIndex fd).2 := fun same =>
      apart (getBlockAndIndex_injective (Prod.ext block same))
    simp only [entry, slots, assign]
    rw [block, AList.lookup_insert, Option.getD_some, Function.update_of_ne offset]
  · simp only [entry, slots, assign, ne_eq, block, not_false_eq_true, AList.lookup_insert_ne]

/-- `forEach` visits exactly the descriptors that have some bit. -/
theorem mem_forEach (map : FdWatchMap κ) (fd : Nat) :
    fd ∈ map.forEach ↔ (map.entry fd).bitmask ≠ 0 := by
  simp only [forEach, List.mem_flatMap, List.mem_map, List.mem_filter, List.mem_finRange, true_and,
    decide_eq_true_eq]
  constructor
  · rintro ⟨⟨id, slots⟩, inside, offset, bits, rfl⟩
    have block : getBlockAndIndex (id * kBlockSize + offset) = (id, offset) := by
      have small : offset.val < 64 := offset.isLt
      refine Prod.ext ?_ (Fin.ext ?_) <;> simp only [getBlockAndIndex, kBlockSize_eq] <;> omega
    have found : map.block.lookup id = some slots := AList.mem_lookup_iff.mpr inside
    unfold entry FdWatchMap.slots
    rw [block, found]
    exact bits
  · intro bits
    cases found : map.block.lookup (getBlockAndIndex fd).1 with
    | none =>
        simp only [entry, slots, found, Option.getD_none] at bits
        exact absurd rfl bits
    | some block =>
        refine ⟨⟨_, block⟩, AList.mem_lookup_iff.mp found, (getBlockAndIndex fd).2, ?_, ?_⟩
        · simpa only [entry, slots, found, Option.getD_some] using bits
        · simp only [getBlockAndIndex, kBlockSize_eq]
          omega

end FdWatchMap

/-- The mask that asks for exactly the slots in use. -/
def maskOf (cb : WatchFlag → Option (WatchCallback κ)) : BitVec 32 :=
  (if (cb .RDONLY).isSome then WatchFlag.bits .RDONLY else 0) |||
    (if (cb .WRONLY).isSome then WatchFlag.bits .WRONLY else 0)

section Masks

variable (cb : WatchFlag → Option (WatchCallback κ)) (flag : WatchFlag)

theorem maskOf_none : maskOf (fun _ => (none : Option (WatchCallback κ))) = 0 := by
  simp only [maskOf, Option.isSome_none, Bool.false_eq_true, ↓reduceIte]
  rfl

theorem maskOf_watch (callback : WatchCallback κ) :
    maskOf (Function.update cb flag (some callback)) = maskOf cb ||| flag.bits := by
  cases flag <;> cases reader : cb .RDONLY <;> cases writer : cb .WRONLY <;>
    simp [maskOf, reader, writer, WatchFlag.bits]

theorem maskOf_unwatch :
    maskOf (Function.update cb flag none) = maskOf cb &&& ~~~ flag.bits := by
  cases flag <;> cases reader : cb .RDONLY <;> cases writer : cb .WRONLY <;>
    simp [maskOf, reader, writer, WatchFlag.bits]

theorem maskOf_bit : maskOf cb &&& flag.bits ≠ 0 ↔ (cb flag).isSome = true := by
  cases flag <;> cases reader : cb .RDONLY <;> cases writer : cb .WRONLY <;>
    simp [maskOf, reader, writer, WatchFlag.bits]

theorem maskOf_or_of_isSome (engaged : (cb flag).isSome = true) :
    maskOf cb ||| flag.bits = maskOf cb := by
  obtain ⟨callback, same⟩ := Option.isSome_iff_exists.mp engaged
  rw [← maskOf_watch cb flag callback, ← same, Function.update_eq_self]

theorem maskOf_and_of_isNone (vacant : cb flag = none) :
    maskOf cb &&& ~~~ flag.bits = maskOf cb := by
  rw [← maskOf_unwatch, ← vacant, Function.update_eq_self]

theorem maskOf_eq_zero : maskOf cb = 0 ↔ cb = fun _ => none := by
  refine ⟨fun zero => funext fun flag => ?_, fun vacant => by rw [vacant, maskOf_none]⟩
  have bit := maskOf_bit cb flag
  simpa [zero] using bit

theorem maskOf_or_ne_zero : maskOf cb ||| flag.bits ≠ 0 := by
  intro zero
  rw [← maskOf_watch cb flag .wakeup, maskOf_eq_zero] at zero
  have vacant := congrFun zero flag
  rw [Function.update_self] at vacant
  cases vacant

end Masks

namespace EventWatcher

/-- What is registered for a descriptor and a flag. -/
def registered (ew : EventWatcher κ) (fd : Nat) (flag : WatchFlag) : Option (WatchCallback κ) :=
  (ew.fdMap.entry fd).cb flag

/-- Every bit stands for a callback and every callback for a bit. -/
def Tidy (ew : EventWatcher κ) : Prop :=
  ∀ fd, (ew.fdMap.entry fd).bitmask = maskOf (ew.fdMap.entry fd).cb

theorem Tidy.tryEmplace {ew : EventWatcher κ} (tidy : ew.Tidy) (fd other : Nat) :
    (ew.fdMap.tryEmplace fd).entry other = ew.fdMap.entry other := by
  unfold FdWatchMap.tryEmplace FdWatchMap.try_emplace
  by_cases same : other = fd
  · subst same
    rw [FdWatchMap.entry_assign]
    split
    · rename_i zero
      have vacant := (maskOf_eq_zero _).mp ((tidy other).symm.trans zero)
      calc ({} : WatchEntry κ) = { cb := fun _ => none, bitmask := 0 } := rfl
        _ = ew.fdMap.entry other := by rw [← vacant, ← zero]
    · rfl
  · exact FdWatchMap.entry_assign_ne _ same _

/-- `try_emplace` for a reported descriptor changes nothing. -/
theorem Tidy.emplaced {ew : EventWatcher κ} (tidy : ew.Tidy) (fd : Nat) :
    Tidy { ew with fdMap := ew.fdMap.tryEmplace fd } ∧
      registered { ew with fdMap := ew.fdMap.tryEmplace fd } = ew.registered := by
  refine ⟨fun other => ?_, funext fun other => funext fun flag => ?_⟩
  · dsimp only
    rw [tidy.tryEmplace]
    exact tidy other
  · simp only [registered, tidy.tryEmplace]

theorem epollCtl_fdMap (ew : EventWatcher κ) (op : EpollOp) (fd : Nat) (mask : BitVec 32) :
    (ew.epollCtl op fd mask).fdMap = ew.fdMap := by
  unfold epollCtl
  split <;> rfl

theorem epollCtl_eventfd (ew : EventWatcher κ) (op : EpollOp) (fd : Nat) (mask : BitVec 32) :
    (ew.epollCtl op fd mask).eventfd = ew.eventfd := by
  unfold epollCtl
  split <;> rfl

theorem handleWatch_eventfd {ew : EventWatcher κ} (fd : Nat) (flag : WatchFlag)
    (callback : WatchCallback κ) :
    (ew.handleWatch fd flag callback).eventfd = ew.eventfd := by
  simp only [handleWatch, handleFdWatchModeChange]
  split
  · exact epollCtl_eventfd ..
  · rfl

theorem handleUnwatch_eventfd {ew : EventWatcher κ} (fd : Nat) (flag : WatchFlag) :
    (ew.handleUnwatch fd flag).eventfd = ew.eventfd := by
  simp only [handleUnwatch, handleFdWatchModeChange]
  split
  · exact epollCtl_eventfd ..
  · rfl

theorem Tidy.entry_assign {ew : EventWatcher κ} (tidy : ew.Tidy) (fd other : Nat)
    (value : WatchEntry κ) :
    ((ew.fdMap.tryEmplace fd).assign fd value).entry other =
      if other = fd then value else ew.fdMap.entry other := by
  split
  · rename_i same
    rw [same, FdWatchMap.entry_assign]
  · rename_i apart
    rw [FdWatchMap.entry_assign_ne _ apart, tidy.tryEmplace]

theorem Tidy.entry_handleWatch {ew : EventWatcher κ} (tidy : ew.Tidy) (fd other : Nat)
    (flag : WatchFlag) (callback : WatchCallback κ) :
    (ew.handleWatch fd flag callback).fdMap.entry other =
      if other = fd then
        { cb := Function.update (ew.fdMap.entry fd).cb flag (some callback)
          bitmask := (ew.fdMap.entry fd).bitmask ||| flag.bits }
      else
        ew.fdMap.entry other := by
  simp only [handleWatch, handleFdWatchModeChange, tidy.tryEmplace fd fd]
  split
  · rw [epollCtl_fdMap, tidy.entry_assign]
  · rw [tidy.entry_assign]

theorem Tidy.entry_handleUnwatch {ew : EventWatcher κ} (tidy : ew.Tidy) (fd other : Nat)
    (flag : WatchFlag) :
    (ew.handleUnwatch fd flag).fdMap.entry other =
      if other = fd then
        { cb := Function.update (ew.fdMap.entry fd).cb flag none
          bitmask := (ew.fdMap.entry fd).bitmask &&& ~~~ flag.bits }
      else
        ew.fdMap.entry other := by
  simp only [handleUnwatch, handleFdWatchModeChange, tidy.tryEmplace fd fd]
  split
  · rw [epollCtl_fdMap, tidy.entry_assign]
  · rw [tidy.entry_assign]

theorem Tidy.handleWatch {ew : EventWatcher κ} (tidy : ew.Tidy) (fd : Nat) (flag : WatchFlag)
    (callback : WatchCallback κ) : (ew.handleWatch fd flag callback).Tidy := by
  intro other
  rw [tidy.entry_handleWatch]
  split
  · rw [maskOf_watch, tidy fd]
  · exact tidy other

theorem Tidy.handleUnwatch {ew : EventWatcher κ} (tidy : ew.Tidy) (fd : Nat) (flag : WatchFlag) :
    (ew.handleUnwatch fd flag).Tidy := by
  intro other
  rw [tidy.entry_handleUnwatch]
  split
  · rw [maskOf_unwatch, tidy fd]
  · exact tidy other

theorem Tidy.registered_handleWatch {ew : EventWatcher κ} (tidy : ew.Tidy) (fd other : Nat)
    (flag flag' : WatchFlag) (callback : WatchCallback κ) :
    (ew.handleWatch fd flag callback).registered other flag' =
      if other = fd ∧ flag' = flag then some callback else ew.registered other flag' := by
  unfold registered
  rw [tidy.entry_handleWatch]
  by_cases same : other = fd
  · simp only [same, ↓reduceIte, true_and, Function.update_apply]
  · simp only [same, ↓reduceIte, false_and]

theorem Tidy.registered_handleUnwatch {ew : EventWatcher κ} (tidy : ew.Tidy) (fd other : Nat)
    (flag flag' : WatchFlag) :
    (ew.handleUnwatch fd flag).registered other flag' =
      if other = fd ∧ flag' = flag then none else ew.registered other flag' := by
  unfold registered
  rw [tidy.entry_handleUnwatch]
  by_cases same : other = fd
  · simp only [same, ↓reduceIte, true_and, Function.update_apply]
  · simp only [same, ↓reduceIte, false_and]

/-- The kernel's interest in a descriptor is its mask. -/
def Agrees (ew : EventWatcher κ) (fd : Nat) : Prop :=
  ew.interest fd =
    if (ew.fdMap.entry fd).bitmask = 0 then none else some (ew.fdMap.entry fd).bitmask

/-- Slots, bits and the kernel's interest set tell the same story, and the kernel never
refused an operation. -/
structure Consistent (ew : EventWatcher κ) : Prop where
  tidy : ew.Tidy
  kernel : ∀ fd, ew.Agrees fd
  legal : ew.refused = []

/-- A new value behind a legal operation of the right kind keeps the kernel in line
with the table. -/
theorem Consistent.agrees_modeChange {ew : EventWatcher κ} (consistent : ew.Consistent) {fd : Nat}
    {value : WatchEntry κ} {op : EpollOp} (legal : ew.legal op fd = true)
    (kind : op = .EPOLL_CTL_DEL ↔ value.bitmask = 0) (other : Nat) :
    (handleFdWatchModeChange { ew with fdMap := (ew.fdMap.tryEmplace fd).assign fd value } fd
        op).Agrees other ∧
      (handleFdWatchModeChange { ew with fdMap := (ew.fdMap.tryEmplace fd).assign fd value } fd
        op).refused = [] := by
  have legal' : EventWatcher.legal { ew with fdMap := (ew.fdMap.tryEmplace fd).assign fd value }
      op fd = true := legal
  have kernel := consistent.kernel other
  simp only [handleFdWatchModeChange, epollCtl, legal', ↓reduceIte, kind,
    FdWatchMap.entry_assign]
  refine ⟨?_, consistent.legal⟩
  simp only [Agrees, consistent.tidy.entry_assign]
  by_cases same : other = fd
  · simp only [same, ↓reduceIte, Function.update_self]
  · simp only [same, ↓reduceIte, ne_eq, not_false_eq_true, Function.update_of_ne]
    exact kernel

/-- A new value with the bits of the old one needs no operation. -/
theorem Consistent.agrees_sameMode {ew : EventWatcher κ} (consistent : ew.Consistent) {fd : Nat}
    {value : WatchEntry κ} (bits : value.bitmask = (ew.fdMap.entry fd).bitmask) (other : Nat) :
    Agrees { ew with fdMap := (ew.fdMap.tryEmplace fd).assign fd value } other := by
  have kernel := consistent.kernel other
  simp only [Agrees, consistent.tidy.entry_assign]
  by_cases same : other = fd
  · subst same
    rw [if_pos rfl, bits]
    exact kernel
  · rw [if_neg same]
    exact kernel

theorem Consistent.handleWatch {ew : EventWatcher κ} (consistent : ew.Consistent) (fd : Nat)
    (flag : WatchFlag) (callback : WatchCallback κ) :
    (ew.handleWatch fd flag callback).Consistent := by
  have agrees := consistent.kernel fd
  have bits := consistent.tidy fd
  have engaged := maskOf_or_ne_zero (ew.fdMap.entry fd).cb flag
  suffices both : ∀ other, (ew.handleWatch fd flag callback).Agrees other ∧
      (ew.handleWatch fd flag callback).refused = [] from
    ⟨consistent.tidy.handleWatch fd flag callback, fun other => (both other).1, (both 0).2⟩
  intro other
  simp only [EventWatcher.handleWatch, consistent.tidy.tryEmplace fd fd]
  cases slot : (ew.fdMap.entry fd).cb flag with
  | none =>
      simp only [Option.isNone_none, ↓reduceIte]
      refine consistent.agrees_modeChange ?_ ?_ other
      · split
        · rename_i zero
          simp only [EventWatcher.legal, agrees.trans (if_pos zero), Option.isNone_none]
        · rename_i present
          simp only [EventWatcher.legal, agrees.trans (if_neg present), Option.isSome_some]
      · rw [bits]
        simp only [engaged, iff_false]
        split <;> simp
  | some prior =>
      simp only [Option.isNone_some, Bool.false_eq_true, ↓reduceIte]
      refine ⟨consistent.agrees_sameMode ?_ other, consistent.legal⟩
      rw [bits, maskOf_or_of_isSome _ _ (by rw [slot]; rfl)]

theorem Consistent.handleUnwatch {ew : EventWatcher κ} (consistent : ew.Consistent) (fd : Nat)
    (flag : WatchFlag) : (ew.handleUnwatch fd flag).Consistent := by
  have agrees := consistent.kernel fd
  have bits := consistent.tidy fd
  suffices both : ∀ other, (ew.handleUnwatch fd flag).Agrees other ∧
      (ew.handleUnwatch fd flag).refused = [] from
    ⟨consistent.tidy.handleUnwatch fd flag, fun other => (both other).1, (both 0).2⟩
  intro other
  simp only [EventWatcher.handleUnwatch, consistent.tidy.tryEmplace fd fd]
  cases slot : (ew.fdMap.entry fd).cb flag with
  | none =>
      simp only [Option.isSome_none, Bool.false_eq_true, ↓reduceIte]
      refine ⟨consistent.agrees_sameMode ?_ other, consistent.legal⟩
      rw [bits, maskOf_and_of_isNone _ _ slot]
  | some prior =>
      have present : (ew.fdMap.entry fd).bitmask ≠ 0 := by
        intro zero
        have vacant := (maskOf_eq_zero _).mp (bits.symm.trans zero)
        rw [vacant] at slot
        cases slot
      simp only [Option.isSome_some, ↓reduceIte]
      refine consistent.agrees_modeChange ?_ ?_ other
      · split <;> simp only [EventWatcher.legal, agrees.trans (if_neg present), Option.isSome_some]
      · split <;> simp_all

/-- A fresh watcher: no slot, no bit, no interest. -/
theorem Consistent.fresh (eventfd : Nat) : Consistent ({ eventfd } : EventWatcher κ) := by
  have vacant : ∀ fd, ({} : FdWatchMap κ).entry fd = {} := FdWatchMap.entry_empty
  refine ⟨fun fd => ?_, fun fd => ?_, rfl⟩
  · rw [vacant]
    exact maskOf_none.symm
  · simp only [Agrees, vacant, ↓reduceIte]

theorem create_consistent (eventfd : Nat) : (create eventfd : EventWatcher κ).Consistent :=
  (Consistent.fresh eventfd).handleWatch eventfd .RDONLY .wakeup

theorem registered_create (eventfd fd : Nat) (flag : WatchFlag) :
    (create eventfd : EventWatcher κ).registered fd flag =
      if fd = eventfd ∧ flag = .RDONLY then some .wakeup else none := by
  rw [create, (Consistent.fresh eventfd).tidy.registered_handleWatch]
  simp only [registered, FdWatchMap.entry_empty]

theorem epollCtl_interest (ew : EventWatcher κ) (fd other : Nat) :
    (ew.epollCtl .EPOLL_CTL_DEL fd 0).interest other =
      if other = fd then none else ew.interest other := by
  unfold epollCtl
  split
  · simp only [↓reduceIte, Function.update_apply]
  · rename_i illegal
    split
    · rename_i same
      simpa only [same, legal, Bool.not_eq_true, Option.isSome_eq_false_iff,
        Option.isNone_iff_eq_none] using illegal
    · rfl

/-- `unwatchAll` ends the kernel's interest in every descriptor that has bits, the
eventfd included, and leaves the table as it was. -/
theorem handleUnwatchAll_spec (ew : EventWatcher κ) :
    ew.handleUnwatchAll.fdMap = ew.fdMap ∧ ew.handleUnwatchAll.eventfd = ew.eventfd ∧
      ∀ fd, ew.handleUnwatchAll.interest fd =
        if (ew.fdMap.entry fd).bitmask = 0 then ew.interest fd else none := by
  have fold : ∀ (fds : List Nat) (ew : EventWatcher κ),
      (fds.foldl (fun ew fd => ew.epollCtl .EPOLL_CTL_DEL fd 0) ew).fdMap = ew.fdMap ∧
        (fds.foldl (fun ew fd => ew.epollCtl .EPOLL_CTL_DEL fd 0) ew).eventfd = ew.eventfd ∧
        ∀ fd, (fds.foldl (fun ew fd => ew.epollCtl .EPOLL_CTL_DEL fd 0) ew).interest fd =
          if fd ∈ fds then none else ew.interest fd := by
    intro fds
    induction fds with
    | nil => exact fun ew =>
        ⟨rfl, rfl, fun fd => by simp only [List.foldl_nil, List.not_mem_nil, ↓reduceIte]⟩
    | cons first fds ih =>
        intro ew
        obtain ⟨map, eventfd, interest⟩ := ih (ew.epollCtl .EPOLL_CTL_DEL first 0)
        refine ⟨map.trans (epollCtl_fdMap ..), eventfd.trans (epollCtl_eventfd ..), fun fd => ?_⟩
        rw [List.foldl_cons, interest, epollCtl_interest]
        by_cases same : fd = first <;> simp [same]
  obtain ⟨map, eventfd, interest⟩ := fold ew.fdMap.forEach ew
  refine ⟨map, eventfd, fun fd => (interest fd).trans ?_⟩
  by_cases zero : (ew.fdMap.entry fd).bitmask = 0 <;> simp [FdWatchMap.mem_forEach, zero]

theorem Tidy.handleUnwatchAll {ew : EventWatcher κ} (tidy : ew.Tidy) :
    ew.handleUnwatchAll.Tidy := by
  intro fd
  rw [ew.handleUnwatchAll_spec.1]
  exact tidy fd

theorem registered_handleUnwatchAll (ew : EventWatcher κ) (fd : Nat) (flag : WatchFlag) :
    ew.handleUnwatchAll.registered fd flag = ew.registered fd flag := by
  unfold registered
  rw [ew.handleUnwatchAll_spec.1]

/-- No descriptor has an interest left after `unwatchAll`. -/
theorem Consistent.interest_handleUnwatchAll {ew : EventWatcher κ} (consistent : ew.Consistent)
    (fd : Nat) : ew.handleUnwatchAll.interest fd = none := by
  rw [ew.handleUnwatchAll_spec.2.2]
  split
  · rename_i zero
    exact (consistent.kernel fd).trans (if_pos zero)
  · rfl

end EventWatcher

end Getrafty
