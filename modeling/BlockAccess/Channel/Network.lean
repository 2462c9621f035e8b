import BlockAccess.Channel.Framed

/-!
# The network

Whether a worker can be reached is up to the network: an address may not resolve, a connection may
not come about, or a worker answers.  `Dialler.network` makes framed channels over a network and
notes what happens.

`Loopback` is the network of a host on its own.  It resolves a single literal address, and a port
there is answered by a worker of the host or refused, unless the loopback device is down altogether.
-/

namespace BlockAccess

/-- What comes of an attempt to connect. -/
inductive Dialled where
  | unresolved (reason : Text)
  | unconnected (reason : Text)
  | answered (worker : Worker)
  deriving DecidableEq, Repr

/-- A network: what comes of connecting to an address with a limit of time in milliseconds. -/
structure Network where
  dial : Address → Int32 → Dialled

/-- Connects over a network. -/
def Dialler.network {W : Type} [Journaled W] [Wired W] (network : Network) (patience : Int32) :
    Dialler W Connection :=
  fun address w =>
    match network.dial address patience with
    | .unresolved reason =>
      (.error (.transport (.unresolved address reason)), note (.unresolved address reason) w)
    | .unconnected reason =>
      (.error (.transport (.unconnected address reason)), note (.unconnected address reason) w)
    | .answered worker =>
      match Wired.connect w with
      | (number, w) => (.ok (some { number, peer := some worker }), note (.connected address) w)

/-- A host on its own: whether its loopback device is up, and the workers by port. -/
structure Loopback where
  up : Bool := false
  workers : List (UInt16 × Worker) := []

namespace Loopback

/-- The only host that resolves. -/
def host : Text := text "127.0.0.1"

/-- The network of a host on its own. -/
def network (l : Loopback) : Network where
  dial address _ :=
    if Text.untilNul address.host != host then .unresolved (text "Name or service not known")
    else if !l.up then .unconnected (text "Network is unreachable")
    else
      match l.workers.find? fun e => e.1 == address.dataPort with
      | some (_, worker) => .answered worker
      | none => .unconnected (text "Connection refused")

end Loopback

end BlockAccess
