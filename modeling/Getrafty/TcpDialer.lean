import Getrafty.Errno
import Getrafty.EventLoop

set_option autoImplicit false

namespace Getrafty

/-- What a dialer does, in order; its callback on the watcher is known by `κ`. -/
inductive DialerAction (κ : Type) where
  | call (call : Call κ)
  | close (fd : Int)
  | failure (err : Int)
  | connected (fd : Int)
  deriving DecidableEq

/-- How `parseAddress`, `makeSockTcp`, `setSockOptNonBlocking` and `sockConnect` turn out;
`error` is what `getSockOptError` then says. -/
inductive DialOutcome where
  | unparsable
  | noSocket (err : Int)
  | blocking (fd : Nat) (err : Int)
  | connected (fd : Nat) (error : Int)
  | inProgress (fd : Nat)
  | refused (fd : Nat) (err : Int)
  deriving DecidableEq

structure TcpDialer where
  fd_ : Int := -1
  deriving DecidableEq

variable {κ : Type}

namespace TcpDialer

/-- The descriptor is closed or handed to the transport. -/
def onWritable (d : TcpDialer) (error : Int) : TcpDialer × List (DialerAction κ) :=
  ({ fd_ := -1 },
    .call (.unwatch d.fd_ .WRONLY) ::
      if error ≠ 0 then [.close d.fd_, .failure error] else [.connected d.fd_])

/-- A descriptor that an earlier `dial` left is overwritten. -/
def dial (d : TcpDialer) (self : κ) : DialOutcome → TcpDialer × List (DialerAction κ)
  | .unparsable => (d, [.failure EINVAL])
  | .noSocket err => ({ fd_ := -1 }, [.failure err])
  | .blocking fd err => ({ fd_ := -1 }, [.close fd, .failure err])
  | .connected fd error => onWritable { fd_ := fd } error
  | .inProgress fd => ({ fd_ := fd }, [.call (.watch fd .WRONLY self)])
  | .refused fd err => ({ fd_ := -1 }, [.close fd, .failure err])

/-- `~TcpDialer()`. -/
def destroy (d : TcpDialer) : List (DialerAction κ) :=
  if 0 ≤ d.fd_ then [.call (.unwatch d.fd_ .WRONLY), .close d.fd_] else []

/-- What can happen to a dialer between its constructor and its destructor. -/
inductive Use where
  | dial (outcome : DialOutcome)
  | onWritable (error : Int)
  deriving DecidableEq

def use (d : TcpDialer) (self : κ) : Use → TcpDialer × List (DialerAction κ)
  | .dial outcome => d.dial self outcome
  | .onWritable error => d.onWritable error

/-- A whole life: the uses, then the destructor. -/
def life (d : TcpDialer) (self : κ) : List Use → List (DialerAction κ)
  | [] => d.destroy
  | first :: uses => (d.use self first).2 ++ life (d.use self first).1 self uses

/-- `dial` is only called while no attempt is in progress. -/
def DialsOnce (d : TcpDialer) (self : κ) : List Use → Prop
  | [] => True
  | first :: uses =>
      (∀ outcome, first = .dial outcome → d.fd_ < 0) ∧ DialsOnce (d.use self first).1 self uses

end TcpDialer

namespace DialerAction

def calls (actions : List (DialerAction κ)) : List (Call κ) :=
  actions.filterMap fun action =>
    match action with
    | .call made => some made
    | _ => none

end DialerAction

end Getrafty
