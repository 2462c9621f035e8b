import BlockAccess.Source

/-!
# Streams over a block

A stream reads a block of a declared length from a source.  Sequential reads share one reader.  It
is made when the first of them needs it and lives until the stream is moved, comes to the end of the
block or is closed.  A read never gives more than what is left of the current packet, so the number
of bytes it gives depends on how the source cuts the block.

The length is a declaration.  A source may run dry before it is reached, or deliver more; the end of
the stream is where the source says so.  From then on the stream is at its end until it is moved
back.

The functions give the stream as it is afterwards also where they fail.  Positions wrap like words
of 64 bits do, and what is left is read as a signed number, so for a length of 2^63 or more a stream
may say that a negative number of bytes is left.
-/

namespace BlockAccess

/-- A stream over a block, with readers `R`. -/
structure Stream (R : Type) where
  /-- The block that is read. -/
  block : UInt64
  /-- The declared length of the block. -/
  length : UInt64
  /-- The reader of the sequential reads, while there is one. -/
  reader : Option R := none
  /-- The packet that is being read, while there is one. -/
  packet : Option Packet := none
  /-- The offset in the block of the next byte. -/
  position : UInt64 := 0
  closed : Bool := false
  /-- Whether the end of the stream was met. -/
  ended : Bool := false

/-- The number of empty packets in a row at which a reader is given up. -/
def emptyPacketLimit : Nat := 16

/-- The next packet of a reader that has bytes in it.  Empty ones are given back, and `budget` of
them in a row are a failure. -/
def Source.pull {W R : Type} [Journaled W] (src : Source W R) (block : UInt64) :
    (budget : Nat) → R → W → Except Failure (Option Packet) × R × W
  | 0, r, w => (.error (.transport (.emptyPackets block)), r, w)
  | budget + 1, r, w =>
    match src.next r w with
    | (.ok (some p), r, w) =>
      if p.unread.isEmpty then
        src.pull block budget r (src.release p (note (.emptyPacket (src.position r) block) w))
      else (.ok (some p), r, w)
    | (result, r, w) => (result, r, w)

namespace Stream

variable {W R : Type}

/-- The number of bytes in front of the declared end. -/
def rest (s : Stream R) : UInt64 := s.length - s.position

/-! ## The current packet -/

/-- Gives the current packet back, if there is one. -/
def releasePacket (src : Source W R) (s : Stream R) (w : W) : Stream R × W :=
  match s.packet with
  | none => (s, w)
  | some p => ({ s with packet := none }, src.release p w)

/-- Gives up packet and reader.  The stream has neither afterwards, whatever becomes of closing the
reader. -/
def dropReader (src : Source W R) (s : Stream R) (w : W) : Except Failure Unit × Stream R × W :=
  match s.releasePacket src w with
  | (s, w) =>
    match s.reader with
    | none => (.ok (), s, w)
    | some r =>
      match src.close r w with
      | (result, _, w) => (result, { s with reader := none }, w)

variable [Journaled W]

/-- Sees to it that there is a reader. -/
def withReader (src : Source W R) (s : Stream R) (w : W) : Except Failure R × Stream R × W :=
  match s.reader with
  | some r => (.ok r, s, w)
  | none =>
    match src.create s.position s.rest (note (.creatingReader s.block s.position s.rest) w) with
    | (.error f, w) => (.error f, s, w)
    | (.ok r, w) => (.ok r, { s with reader := some r }, w)

/-- Sees to it that the current packet has bytes in it, unless the reader is at its end. -/
def fill (src : Source W R) (s : Stream R) (w : W) : Except Failure Unit × Stream R × W :=
  match s.withReader src w with
  | (.error f, s, w) => (.error f, s, w)
  | (.ok r, s, w) =>
    if s.packet.any (!·.unread.isEmpty) then (.ok (), s, w)
    else
      match s.releasePacket src w with
      | (s, w) =>
        match src.pull s.block emptyPacketLimit r w with
        | (.error f, r, w) => (.error f, { s with reader := some r }, w)
        | (.ok p, r, w) => (.ok (), { s with reader := some r, packet := p }, w)

/-- Reads up to `n` bytes of the current packet; none at the end of the stream. -/
def fetch (src : Source W R) (n : UInt64) (s : Stream R) (w : W) :
    Except Failure (Option Bytes) × Stream R × W :=
  match s.fill src w with
  | (.error f, s, w) => (.error f, s, w)
  | (.ok (), s, w) =>
    match (if s.ended then none else s.packet) with
    | none =>
      match dropReader src { s with ended := true } w with
      | (.error f, s, w) => (.error f, s, w)
      | (.ok (), s, w) => (.ok none, s, w)
    | some p =>
      match p.take (p.portion n) with
      | (.error f, q) => (.error f, { s with packet := some q }, w)
      | (.ok b, q) =>
        (.ok (some b), { s with packet := some q, position := s.position + p.portion n }, w)

/-! ## Reading in sequence -/

/-- Reads up to `n` bytes; none at the end of the stream. -/
def readSome (src : Source W R) (n : UInt64) (s : Stream R) (w : W) :
    Except Failure (Option Bytes) × Stream R × W :=
  if s.closed then (.error (.misuse .closedStream), s, w)
  else if n = 0 then (.ok (some []), s, w)
  else s.fetch src n w

/-- Reads one byte; none at the end of the stream. -/
def readByte (src : Source W R) (s : Stream R) (w : W) :
    Except Failure (Option UInt8) × Stream R × W :=
  match s.readSome src 1 w with
  | (.error f, s, w) => (.error f, s, w)
  | (.ok b, s, w) => (.ok (b.bind List.head?), s, w)

/-! ## Moving -/

omit [Journaled W] in
/-- The number of bytes in front of the declared end; nothing is left once the end was met. -/
def remaining (s : Stream R) : Except Failure Int64 :=
  if s.closed then .error (.misuse .closedStream)
  else .ok (if s.ended then 0 else s.rest.toInt64)

omit [Journaled W] in
/-- The stream as it sets out for a position: going back lifts the end. -/
def rewound (s : Stream R) (target : UInt64) : Stream R :=
  { s with ended := s.ended && s.position ≤ target }

/-- Moves to a position from the start to the declared end.  Moving back lifts the end of the
stream; moving to where the stream is does nothing. -/
def seek (src : Source W R) (target : Int64) (s : Stream R) (w : W) :
    Except Failure Unit × Stream R × W :=
  if s.closed then (.error (.misuse .closedStream), s, w)
  else if target < 0 then (.error (.misuse (.seekBeforeStart target)), s, w)
  else if s.length < target.toUInt64 then
    (.error (.misuse (.seekPastEnd target.toUInt64 s.block s.length)), s, w)
  else if target.toUInt64 = s.position then (.ok (), s, w)
  else
    match (s.rewound target.toUInt64).dropReader src w with
    | (.error f, s, w) => (.error f, s, w)
    | (.ok (), s, w) => (.ok (), { s with position := target.toUInt64 }, w)

/-- Passes over up to `n` bytes and gives their number.  The position is moved before the reader is
given up. -/
def skip (src : Source W R) (n : Int64) (s : Stream R) (w : W) :
    Except Failure Int64 × Stream R × W :=
  match s.remaining with
  | .error f => (.error f, s, w)
  | .ok left =>
    if n ≤ 0 then (.ok 0, s, w)
    else
      match dropReader src { s with position := s.position + (min left n).toUInt64 } w with
      | (.error f, s, w) => (.error f, s, w)
      | (.ok (), s, w) => (.ok (min left n), s, w)

/-! ## Closing -/

/-- Closes the stream, its reader and its source.  The source is closed even if closing the reader
fails; if both fail, the source's failure is the one that is told.  Closing again does nothing. -/
def close (src : Source W R) (s : Stream R) (w : W) : Except Failure Unit × Stream R × W :=
  if s.closed then (.ok (), s, w)
  else
    match dropReader src { s with closed := true } w with
    | (dropped, s, w) =>
      match src.shutDown w with
      | (.error f, w) => (.error f, s, w)
      | (.ok (), w) => (dropped, s, w)

end Stream

end BlockAccess
