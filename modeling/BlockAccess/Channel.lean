import BlockAccess.Journal
import BlockAccess.Wire.Request
import BlockAccess.Wire.Response

/-!
# Data channels

A data channel is an established connection to a worker: requests go out, responses come in, and it
is closed in the end.  `Channel W C` says how channels of a certain kind behave, where `C` is what
there is to know about one of them and `W` the state of the program around it.  A channel is a
value.  Every operation gives the channel as it is afterwards, also if it fails, for a failed
operation need not be the last one.

A client that takes back a request has to receive what is still under way.  So that this comes to an
end, a channel knows how much it can still deliver at most: `pending` goes down with every response
received, by more than the bytes of data in it, and goes up only when something is sent.

A `Dialler` makes channels.  It may also come back without one and without a failure.
-/

namespace BlockAccess

/-- How the channels `C` behave in programs with state `W`. -/
structure Channel (W C : Type) where
  /-- Sends a request. -/
  send : Wire.Request → C → W → Except Failure Unit × C × W
  /-- Waits for the next response. -/
  receive : C → W → Except Failure Wire.Response × C × W
  /-- Closes the channel. -/
  close : C → W → Except Failure Unit × C × W
  /-- A bound on the responses that can still be received and the data in them. -/
  pending : C → Nat
  pending_receive : ∀ {c w r c' w'}, receive c w = (.ok r, c', w') →
    pending c' + r.dataSize < pending c

/-- Makes a channel to an address. -/
abbrev Dialler (W C : Type) := Address → W → Except Failure (Option C) × W

/-- A state that remembers, connection by connection, the requests that went out. -/
class Wired (W : Type) where
  /-- Gives the number of a new connection. -/
  connect : W → Nat × W
  /-- Adds a request to those of a connection. -/
  transmit : Nat → Wire.Request → W → W

/-- A state that counts calls: it gives the numbers 0, 1, 2 and so on. -/
class Counting (W : Type) where
  count : W → Nat × W

end BlockAccess
