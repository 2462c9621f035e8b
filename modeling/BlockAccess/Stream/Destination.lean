import BlockAccess.Stream.Positioned

/-!
# Reading into memory

A caller who has memory of its own names a window of it, `count` bytes from `offset` on, and a read
writes what it obtains to the front of that window.  Before anything else it is made sure that the
stream is open, that there is memory, and that the window lies within the size that the caller says
it has.  That this size is true is for the caller to know.
-/

namespace BlockAccess

/-- Memory to read into. -/
structure Destination where
  /-- The size that the caller declares. -/
  size : UInt64
  cells : Bytes
  deriving DecidableEq, Repr

namespace Destination

/-- The memory with some bytes written to it. -/
def put (d : Destination) (offset : Nat) (b : Bytes) : Destination :=
  { d with cells := d.cells.take offset ++ b ++ d.cells.drop (offset + b.length) }

/-- Whether a window lies within the declared size. -/
def admits (d : Destination) (offset count : UInt64) : Bool :=
  offset ≤ d.size && count ≤ d.size - offset

/-- The bytes in a window. -/
def window (d : Destination) (offset count : Nat) : Bytes := (d.cells.drop offset).take count

/-- The bytes around a window. -/
def outside (d : Destination) (offset count : Nat) : Bytes × Bytes :=
  (d.cells.take offset, d.cells.drop (offset + count))

theorem admits_iff (d : Destination) (offset count : UInt64) :
    d.admits offset count = true ↔ offset.toNat + count.toNat ≤ d.size.toNat := by
  simp only [admits, Bool.and_eq_true, decide_eq_true_eq, UInt64.le_iff_toNat_le]
  constructor
  · rintro ⟨h, hc⟩
    rw [UInt64.toNat_sub_of_le _ _ (UInt64.le_iff_toNat_le.2 h)] at hc
    omega
  · intro h
    have ho : offset.toNat ≤ d.size.toNat := by omega
    refine ⟨ho, ?_⟩
    rw [UInt64.toNat_sub_of_le _ _ (UInt64.le_iff_toNat_le.2 ho)]
    omega

end Destination

namespace Stream

variable {W R : Type} [Journaled W]

omit [Journaled W] in
/-- The memory for a read, if stream and window are in order. -/
def destination? (s : Stream R) (d : Option Destination) (offset count : UInt64) :
    Except Failure Destination :=
  if s.closed then .error (.misuse .closedStream)
  else
    match d with
    | none => .error (.misuse .noDestination)
    | some d =>
      if d.admits offset count then .ok d
      else .error (.misuse (.window d.size offset count))

/-- Reads up to `count` bytes into a window.  Gives their number; none at the end of the stream. -/
def readInto (src : Source W R) (d : Option Destination) (offset count : UInt64) (s : Stream R)
    (w : W) : Except Failure (Option Nat) × Option Destination × Stream R × W :=
  match s.destination? d offset count with
  | .error f => (.error f, d, s, w)
  | .ok memory =>
    match s.readSome src count w with
    | (.error f, s, w) => (.error f, d, s, w)
    | (.ok none, s, w) => (.ok none, d, s, w)
    | (.ok (some b), s, w) => (.ok (some b.length), some (memory.put offset.toNat b), s, w)

/-- Reads up to `count` bytes at a position of the block into a window.  Gives their number, or none
if there are none. -/
def readAtInto (src : Source W R) (target : Int64) (d : Option Destination)
    (offset count : UInt64) (s : Stream R) (w : W) :
    Except Failure (Option Nat) × Option Destination × W :=
  match s.destination? d offset count with
  | .error f => (.error f, d, w)
  | .ok memory =>
    match s.readAt src target count w with
    | (result, b, w) => (result, some (memory.put offset.toNat b), w)

end Stream

end BlockAccess
