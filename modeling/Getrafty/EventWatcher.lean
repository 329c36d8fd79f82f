import Mathlib

set_option autoImplicit false

namespace Getrafty

inductive WatchFlag where
  | RDONLY
  | WRONLY
  deriving DecidableEq, Repr

namespace WatchFlag

/-- `EPOLLIN` and `EPOLLOUT`. -/
def bits : WatchFlag → BitVec 32
  | .RDONLY => 0x001
  | .WRONLY => 0x004

end WatchFlag

/-- The closure of the constructor, or a callback of a user known by its name. -/
inductive WatchCallback (κ : Type) where
  | wakeup
  | user (name : κ)
  deriving DecidableEq

/-- The slots `cb_[0]` and `cb_[1]` are found under the flag they serve. -/
structure WatchEntry (κ : Type) where
  cb : WatchFlag → Option (WatchCallback κ) := fun _ => none
  bitmask : BitVec 32 := 0

def kBlockSize : Nat := 1 <<< 6

/-- Block-based sparse array for watch entries. -/
structure FdWatchMap (κ : Type) where
  block : AList (fun _ : Nat => Fin kBlockSize → WatchEntry κ) := ∅

def getBlockAndIndex (fd : Nat) : Nat × Fin kBlockSize :=
  (fd / kBlockSize, ⟨fd % kBlockSize, Nat.mod_lt _ (by decide)⟩)

variable {κ : Type}

namespace FdWatchMap

/-- The slots of a block; a block not yet there is one of empty slots. -/
def slots (map : FdWatchMap κ) (id : Nat) : Fin kBlockSize → WatchEntry κ :=
  (map.block.lookup id).getD (fun _ => {})

def entry (map : FdWatchMap κ) (fd : Nat) : WatchEntry κ :=
  map.slots (getBlockAndIndex fd).1 (getBlockAndIndex fd).2

/-- Assignment through the reference that `try_emplace` returned. -/
def assign (map : FdWatchMap κ) (fd : Nat) (value : WatchEntry κ) : FdWatchMap κ where
  block := map.block.insert (getBlockAndIndex fd).1
    (Function.update (map.slots (getBlockAndIndex fd).1) (getBlockAndIndex fd).2 value)

/-- `try_emplace(fd, value)`, and whether it reports an insertion. It makes the block, and a
slot without bits gets the value. -/
def try_emplace (map : FdWatchMap κ) (fd : Nat) (value : WatchEntry κ) : FdWatchMap κ × Bool :=
  let inserted := (map.entry fd).bitmask = 0
  (map.assign fd (if inserted then value else map.entry fd), inserted)

/-- The map after `try_emplace(fd, {})`. -/
def tryEmplace (map : FdWatchMap κ) (fd : Nat) : FdWatchMap κ := (map.try_emplace fd {}).1

/-- The descriptors `forEach` visits. -/
def forEach (map : FdWatchMap κ) : List Nat :=
  map.block.entries.flatMap fun block =>
    ((List.finRange kBlockSize).filter (fun offset => (block.2 offset).bitmask ≠ 0)).map
      (fun offset => block.1 * kBlockSize + offset.val)

end FdWatchMap

inductive EpollOp where
  | EPOLL_CTL_ADD
  | EPOLL_CTL_MOD
  | EPOLL_CTL_DEL
  deriving DecidableEq, Repr

/-- The watcher together with the kernel's side of `epoll_fd_`: its interest set, and
the operations on it that were refused (and only logged). -/
structure EventWatcher (κ : Type) where
  eventfd : Nat
  fdMap : FdWatchMap κ := {}
  interest : Nat → Option (BitVec 32) := fun _ => none
  refused : List (EpollOp × Nat) := []

namespace EventWatcher

/-- `ADD` wants a descriptor that is absent, the others one that is present. -/
def legal (ew : EventWatcher κ) : EpollOp → Nat → Bool
  | .EPOLL_CTL_ADD, fd => (ew.interest fd).isNone
  | .EPOLL_CTL_MOD, fd => (ew.interest fd).isSome
  | .EPOLL_CTL_DEL, fd => (ew.interest fd).isSome

def epollCtl (ew : EventWatcher κ) (op : EpollOp) (fd : Nat) (mask : BitVec 32) : EventWatcher κ :=
  if ew.legal op fd then
    let wanted := if op = .EPOLL_CTL_DEL then none else some mask
    { ew with interest := Function.update ew.interest fd wanted }
  else
    { ew with refused := ew.refused ++ [(op, fd)] }

def handleFdWatchModeChange (ew : EventWatcher κ) (fd : Nat) (op : EpollOp) : EventWatcher κ :=
  ew.epollCtl op fd (ew.fdMap.entry fd).bitmask

def handleWatch (ew : EventWatcher κ) (fd : Nat) (flag : WatchFlag) (callback : WatchCallback κ) :
    EventWatcher κ :=
  let map := ew.fdMap.tryEmplace fd
  let entry := map.entry fd
  let op : EpollOp := if entry.bitmask = 0 then .EPOLL_CTL_ADD else .EPOLL_CTL_MOD
  let value :=
    { cb := Function.update entry.cb flag (some callback), bitmask := entry.bitmask ||| flag.bits }
  let ew := { ew with fdMap := map.assign fd value }
  -- `std::exchange` returned the previous callback
  if (entry.cb flag).isNone then ew.handleFdWatchModeChange fd op else ew

def handleUnwatch (ew : EventWatcher κ) (fd : Nat) (flag : WatchFlag) : EventWatcher κ :=
  let map := ew.fdMap.tryEmplace fd
  let entry := map.entry fd
  let bitmask := entry.bitmask &&& ~~~ flag.bits
  let op : EpollOp := if bitmask = 0 then .EPOLL_CTL_DEL else .EPOLL_CTL_MOD
  let value := { cb := Function.update entry.cb flag none, bitmask }
  let ew := { ew with fdMap := map.assign fd value }
  if (entry.cb flag).isSome then ew.handleFdWatchModeChange fd op else ew

/-- The closure `unwatchAll` submits. It clears neither bits nor slots. -/
def handleUnwatchAll (ew : EventWatcher κ) : EventWatcher κ :=
  ew.fdMap.forEach.foldl (fun ew fd => ew.epollCtl .EPOLL_CTL_DEL fd 0) ew

/-- The constructor watches its `eventfd`. -/
def create (eventfd : Nat) : EventWatcher κ :=
  handleWatch { eventfd } eventfd .RDONLY .wakeup

end EventWatcher

end Getrafty
