import BlockAccess.Journal
import BlockAccess.Packet

/-!
# Sources of packets

A source makes readers for ranges of a block, and a reader hands out the packets of its range one
after the other.  `Source W R` says how sources of a certain kind behave, where `R` is what there is
to know about a reader and `W` the state of the program around it.  Readers are values: every
operation gives the reader as it is afterwards, also if it fails.

Nothing is promised about the packets.  A reader may hand out empty ones without end, more than its
range holds, or something else than the block's bytes; what a client makes of that is for the client
to say.  `Source.Supply` is the one promise that is asked for where a client reads to the end: that
a reader hands out only so many bytes.
-/

namespace BlockAccess

/-- How the readers `R` behave in programs with state `W`. -/
structure Source (W R : Type) where
  /-- Whether packets come straight from a file of this host. -/
  shortCircuit : Bool
  /-- Makes a reader for `length` bytes from `offset` on. -/
  create : (offset length : UInt64) → W → Except Failure R × W
  /-- The next packet of a reader; none at the end of its range. -/
  next : R → W → Except Failure (Option Packet) × R × W
  /-- The offset in the block of the next byte that a reader will hand out. -/
  position : R → UInt64
  /-- Closes a reader. -/
  close : R → W → Except Failure Unit × R × W
  /-- Takes a packet back. -/
  release : Packet → W → W
  /-- Closes the source. -/
  shutDown : W → Except Failure Unit × W

namespace Source

variable {W R : Type}

/-- A bound on the bytes that a reader of a source still hands out. -/
structure Supply (src : Source W R) where
  left : R → Nat
  left_next : ∀ {r w p r' w'}, src.next r w = (.ok (some p), r', w') →
    left r' + p.readable ≤ left r

end Source

end BlockAccess
