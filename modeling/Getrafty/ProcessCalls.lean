import Getrafty.EventWatcherTable
import Getrafty.Process
import Getrafty.TransportOutbound

set_option autoImplicit false

namespace Getrafty

section Calls

variable {κ : Type} {ew : EventWatcher κ}

namespace EventWatcher

/-- What calls about one descriptor leave of a watcher; `entered` is what they may register. -/
structure Rewatched (fd : Nat) (entered : WatchFlag → κ → Prop) (ew next : EventWatcher κ) :
    Prop where
  consistent : next.Consistent
  eventfd : next.eventfd = ew.eventfd
  elsewhere : ∀ other flag, other ≠ fd → next.registered other flag = ew.registered other flag
  here : ∀ flag callback, next.registered fd flag = some callback →
    ew.registered fd flag = some callback ∨ ∃ name, callback = .user name ∧ entered flag name

namespace Rewatched

variable {middle next : EventWatcher κ} {fd : Nat} {entered : WatchFlag → κ → Prop}

theorem refl (consistent : ew.Consistent) : Rewatched fd entered ew ew :=
  ⟨consistent, rfl, fun _ _ _ => rfl, fun _ _ held => Or.inl held⟩

theorem trans (first : Rewatched fd entered ew middle) (second : Rewatched fd entered middle next) :
    Rewatched fd entered ew next where
  consistent := second.consistent
  eventfd := second.eventfd.trans first.eventfd
  elsewhere other flag apart :=
    (second.elsewhere other flag apart).trans (first.elsewhere other flag apart)
  here flag callback held := (second.here flag callback held).elim (first.here flag callback) Or.inr

theorem watch (consistent : ew.Consistent) {flag : WatchFlag} {name : κ} (may : entered flag name) :
    Rewatched fd entered ew (ew.handleWatch fd flag (.user name)) where
  consistent := consistent.handleWatch fd flag (.user name)
  eventfd := handleWatch_eventfd fd flag (.user name)
  elsewhere other flag' apart := by
    rw [consistent.tidy.registered_handleWatch, if_neg (fun same => apart same.1)]
  here flag' callback held := by
    rw [consistent.tidy.registered_handleWatch] at held
    split at held
    · rename_i same
      exact Or.inr ⟨name, (Option.some.inj held).symm, same.2 ▸ may⟩
    · exact Or.inl held

theorem unwatch (consistent : ew.Consistent) (flag : WatchFlag) :
    Rewatched fd entered ew (ew.handleUnwatch fd flag) where
  consistent := consistent.handleUnwatch fd flag
  eventfd := handleUnwatch_eventfd fd flag
  elsewhere other flag' apart := by
    rw [consistent.tidy.registered_handleUnwatch, if_neg (fun same => apart same.1)]
  here flag' callback held := by
    rw [consistent.tidy.registered_handleUnwatch] at held
    split at held
    · cases held
    · exact Or.inl held

end Rewatched

end EventWatcher

theorem Call.inline_watch (fd : Nat) (flag : WatchFlag) (name : κ) :
    (Call.watch fd flag name).inline ew = ew.handleWatch fd flag (.user name) := by
  have valid : ¬ ((fd : Int) < 0) := by omega
  simp only [Call.inline, Call.task, valid, ↓reduceIte, Task.perform, Int.toNat_natCast]

theorem Call.inline_unwatch (fd : Nat) (flag : WatchFlag) :
    (Call.unwatch fd flag).inline ew = ew.handleUnwatch fd flag := by
  have valid : ¬ ((fd : Int) < 0) := by omega
  simp only [Call.inline, Call.task, valid, ↓reduceIte, Task.perform, Int.toNat_natCast]

/-- Calls made one after the other. -/
def Call.inlineAll (calls : List (Call κ)) (ew : EventWatcher κ) : EventWatcher κ :=
  calls.foldl (fun ew call => call.inline ew) ew

theorem Call.inlineAll_append (front back : List (Call κ)) (ew : EventWatcher κ) :
    inlineAll (front ++ back) ew = inlineAll back (inlineAll front ew) :=
  List.foldl_append

end Calls

namespace Transport

section Calls

variable (t : Transport)

theorem inline_ew (call : Call TransportCallback) : (t.inline call).ew = call.inline t.ew := by
  unfold inline Call.inline
  cases call.task <;> rfl

theorem inline_fd (call : Call TransportCallback) : (t.inline call).fd = t.fd := by
  unfold inline
  cases call.task <;> rfl

theorem write_calls (buf : LiveBuf) : (t.write buf.toByteBuf).1.fd = t.fd ∧
    (t.write buf.toByteBuf).1.ew = Call.inlineAll (writeCalls t.fd [buf]) t.ew := by
  unfold write writeCalls
  by_cases empty : buf.toByteBuf.readableBytes = 0
  · simp only [empty, ↓reduceIte, ne_eq, not_true_eq_false, decide_false, Bool.false_eq_true,
      not_false_eq_true, List.filter_cons_of_neg, List.filter_nil, List.map_nil, Call.inlineAll,
      List.foldl_nil, and_self]
  · generalize t.wbuf.write buf.toByteBuf buf.toByteBuf.readableBytes t.alloc = moved
    simp only [empty, ↓reduceIte, ne_eq, not_false_eq_true, decide_true, List.filter_cons_of_pos,
      List.filter_nil, List.map_cons, List.map_nil, Call.inlineAll, List.foldl_cons,
      List.foldl_nil]
    exact ⟨inline_fd _ _, inline_ew _ _⟩

theorem writeAll_calls (bufs : List LiveBuf) : (t.writeAll bufs).1.fd = t.fd ∧
    (t.writeAll bufs).1.ew = Call.inlineAll (writeCalls t.fd bufs) t.ew := by
  induction bufs generalizing t with
  | nil => exact ⟨rfl, rfl⟩
  | cons buf bufs ih =>
      obtain ⟨fd, ew⟩ := t.write_calls buf
      rw [writeAll]
      generalize t.write buf.toByteBuf = first at fd ew ⊢
      obtain ⟨fds, ews⟩ := ih first.1
      have split : writeCalls t.fd (buf :: bufs) =
          writeCalls t.fd [buf] ++ writeCalls t.fd bufs := by
        unfold writeCalls
        rw [← List.map_append, ← List.filter_append, List.singleton_append]
      rw [split, Call.inlineAll_append, ← ew]
      rw [fd] at fds ews
      exact ⟨fds, ews⟩

theorem inline_calls (call : Call TransportCallback) : (t.inline call).fd = t.fd ∧
    (t.inline call).ew = Call.inlineAll [call] t.ew := by
  rw [inline_fd, inline_ew]
  exact ⟨rfl, rfl⟩

theorem afterLoop_calls (stopped : Stopped) (replies : List LiveBuf) :
    (t.afterLoop stopped replies).1.fd = t.fd ∧
      (t.afterLoop stopped replies).1.ew =
        Call.inlineAll (afterLoopCalls t.fd stopped replies) t.ew := by
  obtain ⟨errno, wbuf, sent⟩ := stopped
  obtain ⟨fd, ew⟩ := inline_calls { t with wbuf } (.unwatch t.fd .WRONLY)
  cases errno with
  | none =>
      simp only [afterLoop, unwatchWritable, afterLoopCalls]
      generalize inline { t with wbuf } (.unwatch t.fd .WRONLY) = calm at fd ew ⊢
      obtain ⟨fds, ews⟩ := calm.writeAll_calls replies
      rw [fds, ews, fd, ew, ← List.singleton_append, Call.inlineAll_append]
      exact ⟨rfl, rfl⟩
  | some errno =>
      simp only [afterLoop, unwatchWritable, afterLoopCalls]
      split
      · exact ⟨rfl, rfl⟩
      · exact ⟨fd, ew⟩

/-- The watcher behind an operation is the one behind its calls. -/
theorem perform_calls (op : Op) : (t.perform op).1.fd = t.fd ∧
    (t.perform op).1.ew = Call.inlineAll (t.calls op) t.ew := by
  cases op with
  | write buf =>
      rw [perform, calls]
      exact t.write_calls buf
  | flush =>
      simp only [perform, flush, calls]
      split
      · exact t.inline_calls _
      · exact ⟨rfl, rfl⟩
  | onWritable outcomes replies =>
      rw [perform, onWritable, calls]
      generalize writeLoop outcomes 256 t.wbuf = stopped
      exact t.afterLoop_calls stopped replies
  | readableStateChanged readable =>
      simp only [perform, readableStateChanged, calls]
      split
      · exact t.inline_calls _
      · exact t.inline_calls _
  | onReadable received last =>
      rw [perform, onReadable, calls]
      exact ⟨rfl, rfl⟩
  | destroy =>
      simp only [perform, destroy, calls, inline_fd, inline_ew, Call.inlineAll, List.foldl_cons,
        List.foldl_nil, and_self]

/-- A call about the descriptor, each callback under its own flag. -/
def Own (fd : Nat) (call : Call TransportCallback) : Prop :=
  call = .watch fd .WRONLY .onWritable ∨ call = .watch fd .RDONLY .onReadable ∨
    ∃ flag, call = .unwatch fd flag

theorem writeCalls_own (fd : Nat) (bufs : List LiveBuf) :
    ∀ call ∈ writeCalls fd bufs, Own fd call := by
  intro call member
  obtain ⟨buf, -, same⟩ := List.mem_map.mp member
  exact Or.inl same.symm

theorem afterLoopCalls_own (fd : Nat) (stopped : Stopped) (replies : List LiveBuf) :
    ∀ call ∈ afterLoopCalls fd stopped replies, Own fd call := by
  intro call member
  unfold afterLoopCalls at member
  split at member
  · split at member
    · cases member
    · exact Or.inr (Or.inr ⟨_, List.mem_singleton.mp member⟩)
  · rcases List.mem_cons.mp member with rfl | later
    · exact Or.inr (Or.inr ⟨_, rfl⟩)
    · exact writeCalls_own fd replies call later

theorem calls_own (op : Op) : ∀ call ∈ t.calls op, Own t.fd call := by
  intro call member
  cases op with
  | write buf =>
      rw [calls] at member
      exact writeCalls_own t.fd [buf] call member
  | flush =>
      rw [calls] at member
      split at member
      · exact Or.inl (List.mem_singleton.mp member)
      · cases member
  | onWritable outcomes replies =>
      rw [calls] at member
      exact afterLoopCalls_own t.fd _ replies call member
  | readableStateChanged readable =>
      rw [calls] at member
      split at member
      · exact Or.inr (Or.inl (List.mem_singleton.mp member))
      · exact Or.inr (Or.inr ⟨_, List.mem_singleton.mp member⟩)
  | onReadable received last =>
      rw [calls] at member
      cases member
  | destroy =>
      simp only [calls, List.mem_cons, List.not_mem_nil, or_false] at member
      rcases member with rfl | rfl
      · exact Or.inr (Or.inr ⟨_, rfl⟩)
      · exact Or.inr (Or.inr ⟨_, rfl⟩)

end Calls

end Transport

end Getrafty
