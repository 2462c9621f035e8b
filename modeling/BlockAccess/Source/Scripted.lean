import BlockAccess.Channel.Scripted
import BlockAccess.Source
import BlockAccess.Trace

/-!
# Scripted sources

A source that plays a script, for trying a client against readers of any conduct.  It keeps a block.
For each reader the script gives the sizes of the packets, zero among them; where the reader stops
early or goes on beyond its range; which packet fails, once or for good; and whether closing the
reader fails.  Making a reader and closing the source can fail as well.

`Source.observed` watches a source of any kind.  Readers are numbered by the calls that ask for one,
packets by the order in which they are handed out.
-/

namespace BlockAccess

/-- The script of a reader. -/
structure ReaderScript where
  /-- The sizes of the packets in order; the last stands for all that follow. -/
  sizes : List Nat := []
  /-- The reader goes on to the end of the block. -/
  unbounded : Bool := false
  /-- The packet that fails, counted from zero. -/
  failAt : Option Nat := none
  /-- The failure occurs only once. -/
  failOnce : Bool := false
  /-- The packet in place of which the reader is at its end. -/
  endAt : Option Nat := none
  closeFails : Bool := false
  deriving DecidableEq, Repr

/-- The script of a source. -/
structure SourceScript where
  block : Bytes
  shortCircuit : Bool := false
  readers : List ReaderScript := []
  /-- The calls for a reader that fail, counted from zero. -/
  failingCreates : List Nat := []
  shutDownFails : Bool := false
  deriving DecidableEq, Repr

/-- A scripted reader and how far its script is played. -/
structure ScriptedReader where
  script : ReaderScript
  /-- The offset of the next byte. -/
  offset : Nat
  /-- The bytes of the range, or of the rest of the block, that are not handed out. -/
  rest : Bytes
  /-- The number of packets handed out. -/
  index : Nat := 0
  exhausted : Bool := false
  hasFailed : Bool := false
  deriving DecidableEq, Repr

namespace ScriptedReader

variable {W : Type}

/-- The size of packets where the script gives none. -/
def defaultSize : Nat := 4

/-- The next packet. -/
def next (r : ScriptedReader) (w : W) : Except Failure (Option Packet) × ScriptedReader × W :=
  if r.exhausted then (.ok none, r, w)
  else if r.script.failAt = some r.index && !(r.script.failOnce && r.hasFailed) then
    (.error (.transport (.reported (text "injected packet failure"))), { r with hasFailed := true },
      w)
  else if r.rest.isEmpty || (r.script.endAt.any (· ≤ r.index)) then
    (.ok none, { r with exhausted := true }, w)
  else
    let size := (forCall? r.script.sizes r.index).getD defaultSize
    let b := r.rest.take size
    (.ok (some (Packet.ofBytes b)),
      { r with offset := r.offset + b.length, rest := r.rest.drop size, index := r.index + 1 }, w)

/-- Closes the reader. -/
def close (r : ScriptedReader) (w : W) : Except Failure Unit × ScriptedReader × W :=
  if r.script.closeFails then
    (.error (.transport (.reported (text "injected close failure"))), r, w)
  else (.ok (), r, w)

end ScriptedReader

namespace SourceScript

variable {W : Type} [Counting W]

/-- Makes a reader by the entry for the call. -/
def create (s : SourceScript) (offset length : UInt64) (w : W) :
    Except Failure ScriptedReader × W :=
  match Counting.count w with
  | (n, w) =>
    if s.failingCreates.contains n then
      (.error (.transport (.reported (text "injected create failure"))), w)
    else
      let script := (forCall? s.readers n).getD {}
      let rest := s.block.drop offset.toNat
      (.ok
        { script, offset := min offset.toNat s.block.length
          rest := if script.unbounded then rest else rest.take length.toNat }, w)

/-- A scripted source. -/
def source (s : SourceScript) : Source W ScriptedReader where
  shortCircuit := s.shortCircuit
  create := s.create
  next := ScriptedReader.next
  position r := UInt64.ofNat r.offset
  close := ScriptedReader.close
  release _ w := w
  shutDown w :=
    if s.shutDownFails then
      (.error (.transport (.reported (text "injected factory close failure"))), w)
    else (.ok (), w)

end SourceScript

/-! ## Watching a source -/

/-- A reader with its number. -/
structure Numbered (R : Type) where
  number : Nat
  reader : R

namespace Source

variable {W R : Type}

/-- Whether a call ended well. -/
def succeeded {ε α : Type} : Except ε α → Bool
  | .ok _ => true
  | .error _ => false

/-- A source under observation. -/
def observed (src : Source W R) : Source (Observed W) (Numbered R) where
  shortCircuit := src.shortCircuit
  create offset length o :=
    match src.create offset length o.inner with
    | (result, w) =>
      (result.map fun reader => { number := o.readers, reader },
        { (o.withInner w).see (.created o.readers offset length (succeeded result)) with
          readers := o.readers + 1 })
  next r o :=
    match src.next r.reader o.inner with
    | (.error f, reader, w) =>
      (.error f, { r with reader }, (o.withInner w).see (.packetFailed r.number))
    | (.ok none, reader, w) =>
      (.ok none, { r with reader }, (o.withInner w).see (.exhausted r.number))
    | (.ok (some p), reader, w) =>
      (.ok (some { p with serial := o.packets }), { r with reader },
        { (o.withInner w).see (.packet r.number o.packets p.readable) with
          packets := o.packets + 1 })
  position r := src.position r.reader
  close r o :=
    match src.close r.reader o.inner with
    | (result, reader, w) =>
      (result, { r with reader },
        (o.withInner w).see (.readerClosed r.number (succeeded result)))
  release p o := (o.withInner (src.release p o.inner)).see (.released p.serial p.size p.readable)
  shutDown o :=
    match src.shutDown o.inner with
    | (result, w) => (result, (o.withInner w).see (.sourceClosed (succeeded result)))

end Source

end BlockAccess
