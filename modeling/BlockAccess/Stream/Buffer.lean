import BlockAccess.Stream

/-!
# Buffered reading

A buffer over a stream gives bytes one at a time and can step back.  It holds the bytes of the last
read: those that are taken and those that are not.  When the latter run out it reads again and the
former are forgotten; at the end of the stream, and when a read fails, they stay.

The stream is ahead of the buffer by the bytes that are not taken.  Positions given by the buffer
account for that, and moving to where the buffer is leaves stream and buffer alone.
-/

namespace BlockAccess

/-- A buffer over a stream. -/
structure StreamBuffer where
  /-- The most bytes that it reads at once. -/
  size : UInt64 := 32768
  /-- The bytes of the last read that are taken, the latest first. -/
  behind : Bytes := []
  /-- The bytes of the last read that are not taken. -/
  ahead : Bytes := []
  deriving DecidableEq, Repr

namespace StreamBuffer

/-- Where the offset of a move counts from. -/
inductive Origin where
  | start
  | here
  | finish
  /-- No valid origin. -/
  | invalid
  deriving DecidableEq, Repr

/-- An empty buffer of a size; it holds one byte at least. -/
def ofSize (size : UInt64) : StreamBuffer := { size := if size = 0 then 1 else size }

/-- The buffer with its next byte taken. -/
def bump (b : StreamBuffer) : StreamBuffer :=
  match b.ahead with
  | [] => b
  | c :: rest => { b with behind := c :: b.behind, ahead := rest }

/-- The buffer with up to `n` of its bytes taken. -/
def bumpMany (b : StreamBuffer) (n : Nat) : StreamBuffer :=
  { b with behind := (b.ahead.take n).reverse ++ b.behind, ahead := b.ahead.drop n }

/-- Steps back by one byte, if one is behind. -/
def back (b : StreamBuffer) : Option UInt8 × StreamBuffer :=
  match b.behind with
  | [] => (none, b)
  | c :: rest => (some c, { b with behind := rest, ahead := c :: b.ahead })

/-- The buffer without its bytes. -/
def emptied (b : StreamBuffer) : StreamBuffer := { b with behind := [], ahead := [] }

variable {W R : Type}

/-- The number of bytes that the stream promises beyond the buffer; none if it promises nothing. -/
def promised (s : Stream R) : Except Failure (Option Int64) :=
  if s.closed then .ok none
  else
    match s.remaining with
    | .error f => .error f
    | .ok left => .ok (if 0 < left then some left else none)

/-- The number of bytes that can be had without waiting, or that the stream promises. -/
def available (b : StreamBuffer) (s : Stream R) : Except Failure (Option Int64) :=
  if b.ahead.isEmpty then promised s else .ok (some (Int64.ofNat b.ahead.length))

variable [Journaled W]

/-- Looks at the next byte, reading if none is there; none at the end of the stream. -/
def peek (src : Source W R) (b : StreamBuffer) (s : Stream R) (w : W) :
    Except Failure (Option UInt8) × StreamBuffer × Stream R × W :=
  match b.ahead with
  | c :: _ => (.ok (some c), b, s, w)
  | [] =>
    match s.readSome src b.size w with
    | (.error f, s, w) => (.error f, b, s, w)
    | (.ok (some (c :: rest)), s, w) =>
      (.ok (some c), { b with behind := [], ahead := c :: rest }, s, w)
    | (.ok _, s, w) => (.ok none, b, s, w)

/-- Takes the next byte. -/
def take (src : Source W R) (b : StreamBuffer) (s : Stream R) (w : W) :
    Except Failure (Option UInt8) × StreamBuffer × Stream R × W :=
  match b.peek src s w with
  | (.ok (some c), b, s, w) => (.ok (some c), b.bump, s, w)
  | (result, b, s, w) => (result, b, s, w)

/-- Takes the next byte and looks at the one behind it. -/
def takePeek (src : Source W R) (b : StreamBuffer) (s : Stream R) (w : W) :
    Except Failure (Option UInt8) × StreamBuffer × Stream R × W :=
  match b.take src s w with
  | (.ok (some _), b, s, w) => b.peek src s w
  | (result, b, s, w) => (result, b, s, w)

/-- Takes up to `n` bytes, reading until they are together or the stream is at its end.  The pieces
taken so far are carried along, the latest first; they are lost if reading fails. -/
def takePieces (src : Source W R) (n : Nat) (got : List Bytes) (b : StreamBuffer) (s : Stream R)
    (w : W) : Except Failure (List Bytes) × StreamBuffer × Stream R × W :=
  let piece := b.ahead.take n
  let left := n - piece.length
  let got := piece :: got
  let b := b.bumpMany n
  if _h : left = 0 then (.ok got, b, s, w)
  else
    match b.take src s w with
    | (.error f, b, s, w) => (.error f, b, s, w)
    | (.ok none, b, s, w) => (.ok got, b, s, w)
    | (.ok (some c), b, s, w) => takePieces src (left - 1) ([c] :: got) b s w
termination_by n
decreasing_by omega

/-- Takes up to `n` bytes. -/
def takeMany (src : Source W R) (n : Int64) (b : StreamBuffer) (s : Stream R) (w : W) :
    Except Failure Bytes × StreamBuffer × Stream R × W :=
  match takePieces src n.toInt.toNat [] b s w with
  | (.error f, b, s, w) => (.error f, b, s, w)
  | (.ok got, b, s, w) => (.ok got.reverse.flatten, b, s, w)

/-- The position in the block of the next byte that the buffer gives. -/
def position (b : StreamBuffer) (s : Stream R) : Int64 :=
  s.position.toInt64 - Int64.ofNat b.ahead.length

/-- The position that a move leads to; none for an origin that is not valid. -/
def target? (b : StreamBuffer) (s : Stream R) (offset : Int64) : Origin → Option Int64
  | .start => some offset
  | .here => some (b.position s + offset)
  | .finish => some (s.length.toInt64 + offset)
  | .invalid => none

/-- Moves by an offset from an origin and gives the new position; none if that is impossible.
`input` says whether it is the reading side that is to be moved, and there is no other. -/
def seek (src : Source W R) (offset : Int64) (origin : Origin) (input : Bool) (b : StreamBuffer)
    (s : Stream R) (w : W) : Except Failure (Option Int64) × StreamBuffer × Stream R × W :=
  if !input then (.ok none, b, s, w)
  else
    match b.target? s offset origin with
    | none => (.ok none, b, s, w)
    | some target =>
      if target < 0 || s.length < target.toUInt64 then (.ok none, b, s, w)
      else if target = b.position s then (.ok (some target), b, s, w)
      else
        match s.seek src target w with
        | (.error f, s, w) => (.error f, b, s, w)
        | (.ok (), s, w) => (.ok (some target), b.emptied, s, w)

end StreamBuffer

end BlockAccess
