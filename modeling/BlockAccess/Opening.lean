import BlockAccess.Channel.Network
import BlockAccess.Settings.Mount
import BlockAccess.Source.Local
import BlockAccess.Source.Remote
import BlockAccess.Stream

/-!
# Opening blocks

What a client does to get at a block is to take the packet size from its settings, find out where
the block is, and put a stream over it.  A mount may have a say in the settings; a client without
mounts passes the mount that says nothing.

The settings are looked at in a fixed order and the first thing wrong with them is what is told: for
a local block the packet size, the storage directory, the folder; for a remote one the packet size
and the time limit for connections.
-/

namespace BlockAccess

namespace Mount

/-- A packet size from the settings; it must be positive. -/
def packetSize (m : Mount) (s : Settings) (k : Key) : Except Failure UInt64 :=
  match m.getBytes s k with
  | .error f => .error f
  | .ok n => if n = 0 then .error (.settings (.notPositive k)) else .ok n

end Mount

namespace Stream

/-- A stream at the start of a block. -/
def start {R : Type} (block length : UInt64) : Stream R := { block, length }

end Stream

variable {W : Type} [Journaled W]

/-- Opens a block that the worker on this host keeps. -/
def LocalBlock.ofSettings [Files.Filed W] (m : Mount) (s : Settings) (address : Address)
    (block : UInt64) (w : W) : Except Failure LocalBlock × W :=
  match m.packetSize s .localPacketSize with
  | .error f => (.error f, w)
  | .ok size =>
    match m.blockPath s block with
    | .error f => (.error f, w)
    | .ok path => LocalBlock.acquire address block size path (note (.openingLocal block path) w)

/-- A block that a worker elsewhere keeps, asked for over framed channels on a network. -/
def RemoteBlock.ofSettings [Wired W] (m : Mount) (s : Settings) (network : Network)
    (address : Address) (request : Wire.Request) : Except Failure (RemoteBlock W Connection) :=
  match m.packetSize s .remotePacketSize with
  | .error f => .error f
  | .ok size =>
    match m.getInt s .connectTimeout with
    | .error f => .error f
    | .ok patience =>
      RemoteBlock.make address { request with packetSize := size } Connection.channel
        (some (Dialler.network network patience.toInt32))

end BlockAccess
