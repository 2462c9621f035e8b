import BlockAccess.Channel
import BlockAccess.Channel.Socket
import BlockAccess.Worker

/-!
# Framed channels

A data channel over a stream socket: a request goes out as a frame, and a response is read as a
header and then as many bytes as it announces.  A header that is refused, and one that announces no
response, end the attempt where they stand.  The body behind such a header is not passed over, and
the channel stays open.

The bytes that arrive are part of the channel.  Where a worker stands at the other end, they grow
with every request by the worker's reply; where nobody is known to answer they are given from the
start.  The requests that went out are remembered by the program's state, because they are still
looked at when the channel is gone.
-/

namespace BlockAccess

/-- A channel over a socket. -/
structure Connection where
  /-- The number under which the requests sent are remembered. -/
  number : Nat
  socket : Socket := {}
  isOpen : Bool := true
  /-- The worker at the other end, if one answers. -/
  peer : Option Worker := none
  deriving DecidableEq, Repr

namespace Connection

/-- What the system says when the peer has closed the connection and something is sent. -/
def brokenPipe : Text := text "Broken pipe"

/-- What the system says when the peer went away with bytes unread. -/
def connectionReset : Text := text "Connection reset by peer"

variable {W : Type} [Journaled W]

/-- Sends a request. -/
def send [Wired W] (r : Wire.Request) (c : Connection) (w : W) :
    Except Failure Unit × Connection × W :=
  if !c.isOpen then (.error (.transport .channelClosed), c, w)
  else if !c.socket.peerReads then
    (.error (.transport (.sendFailed brokenPipe)), c, note (.sendFailed brokenPipe) w)
  else
    let c :=
      match c.peer with
      | none => c
      | some worker => { c with socket := c.socket.arrive (worker.reply r) }
    (.ok (), c, Wired.transmit c.number r w)

/-- Reads exactly `n` bytes. -/
def readExactly (n : Nat) (c : Connection) (w : W) : Except Failure Bytes × Connection × W :=
  match c.socket.readExactly n with
  | (.ok b, s) => (.ok b, { c with socket := s }, w)
  | (.error .ended, s) => (.error (.transport .peerClosed), { c with socket := s }, w)
  | (.error .reset, s) =>
    (.error (.transport (.receiveFailed connectionReset)), { c with socket := s },
      note (.receiveFailed connectionReset) w)

/-- Receives a response. -/
def receive (c : Connection) (w : W) : Except Failure Wire.Response × Connection × W :=
  if !c.isOpen then (.error (.transport .channelClosed), c, w)
  else
    match c.readExactly Wire.Frame.headerSize w with
    | (.error f, c, w) => (.error f, c, w)
    | (.ok header, c, w) =>
      match Wire.Frame.Header.decode? header with
      | none => (.error (.transport .malformedFrame), c, note .badHeader w)
      | some h =>
        match h.kind with
        | .request => (.error (.transport (.unexpectedFrame h.kind.code)), c, w)
        | .response =>
          match c.readExactly h.length w with
          | (.error f, c, w) => (.error f, c, w)
          | (.ok body, c, w) => (Wire.Response.decode body, c, w)

/-- Closes the channel.  Closing it again does nothing. -/
def close (c : Connection) (w : W) : Except Failure Unit × Connection × W :=
  (.ok (), { c with isOpen := false }, w)

/-- The connection after the peer has closed its end.  Bytes that the peer has not read make it
a reset.  Closing the end again does nothing. -/
def peerCloses (c : Connection) (unreadByPeer : Bool) : Connection :=
  if c.socket.peerReads then
    { c with socket := { c.socket with peerReads := false, reset := unreadByPeer } }
  else c

theorem arrived_readExactly {n : Nat} {c d : Connection} {w v : W} {b : Bytes}
    (h : c.readExactly n w = (.ok b, d, v)) : d.socket.arrived + n = c.socket.arrived := by
  unfold readExactly at h
  split at h
  · next s hs =>
    simp only [Prod.mk.injEq] at h
    obtain ⟨-, rfl, -⟩ := h
    exact (Socket.arrived_readExactly hs).2
  · simp at h
  · simp at h

theorem length_readExactly {n : Nat} {c d : Connection} {w v : W} {b : Bytes}
    (h : c.readExactly n w = (.ok b, d, v)) : b.length = n := by
  unfold readExactly at h
  split at h
  · next s hs =>
    simp only [Prod.mk.injEq, Except.ok.injEq] at h
    obtain ⟨rfl, -, -⟩ := h
    exact (Socket.arrived_readExactly hs).1
  · simp at h
  · simp at h

/-- Every response takes its data from what has arrived, and the header of its frame besides. -/
theorem arrived_receive {c d : Connection} {w v : W} {r : Wire.Response}
    (h : c.receive w = (.ok r, d, v)) : d.socket.arrived + r.dataSize < c.socket.arrived := by
  unfold receive at h
  split at h
  · simp at h
  split at h
  · simp at h
  next header c₁ w₁ h₁ =>
  have hfirst := arrived_readExactly h₁
  split at h
  · simp at h
  next head _ =>
  split at h
  · simp at h
  split at h
  · simp at h
  next body c₂ w₂ h₂ =>
  have hsecond := arrived_readExactly h₂
  have hlength := length_readExactly h₂
  simp only [Prod.mk.injEq] at h
  obtain ⟨hr, rfl, -⟩ := h
  have hdata := Wire.Response.dataSize_decode hr
  simp only [Wire.Frame.headerSize] at hfirst
  omega

/-- Framed channels. -/
def channel [Wired W] : Channel W Connection where
  send := send
  receive := receive
  close := close
  pending c := c.socket.arrived
  pending_receive := arrived_receive

end Connection

/-- A dialler whose connections are numbered as they come about. -/
def Dialler.numbered {W : Type} [Wired W] (dial : Dialler W Connection) : Dialler W Connection :=
  fun address w =>
    match dial address w with
    | (.ok (some c), w) =>
      match Wired.connect w with
      | (number, w) => (.ok (some { c with number }), w)
    | (r, w) => (r, w)

end BlockAccess
