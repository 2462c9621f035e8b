import BlockAccess.Failure
import BlockAccess.Wire.Frame

/-!
# Read requests

A client asks for a range of a block, in packets of at most a given size, by one request.  A request
that has its cancel mark set takes back the earlier one that is otherwise the same.

The body has a fixed form of 33 bytes: four numbers of eight bytes and a byte of marks, of which two
are in use.  The other marks are ignored when a request is read.
-/

namespace BlockAccess.Wire

/-- A request for a range of a block. -/
structure Request where
  blockId : UInt64 := 0
  offset : UInt64 := 0
  length : UInt64 := 0
  packetSize : UInt64 := 0
  cancel : Bool := false
  promote : Bool := false
  deriving DecidableEq, Repr

namespace Request

/-- The length of a body. -/
def bodySize : Nat := 33

/-- The byte of marks: cancel is the lowest bit, promote the next. -/
def marks (r : Request) : UInt8 := (if r.cancel then 1 else 0) ||| (if r.promote then 2 else 0)

/-- The body of a request. -/
def body (r : Request) : Bytes :=
  Word.encode 8 r.blockId.toNat ++ Word.encode 8 r.offset.toNat ++ Word.encode 8 r.length.toNat
    ++ Word.encode 8 r.packetSize.toNat ++ [r.marks]

/-- The frame of a request. -/
def encode (r : Request) : Bytes := Frame.encode .request r.body

/-- The number in the eight bytes at an offset. -/
def field (b : Bytes) (offset : Nat) : UInt64 :=
  UInt64.ofNat (Word.decode ((b.drop offset).take 8))

/-- Reads a body. -/
def decode (b : Bytes) : Except Failure Request :=
  if b.length = bodySize then
    let marks := (b.drop 32).headD 0
    .ok { blockId := field b 0, offset := field b 8, length := field b 16, packetSize := field b 24
          cancel := marks &&& 1 != 0, promote := marks &&& 2 != 0 }
  else .error (.transport (.malformedRequest b.length))

theorem length_body (r : Request) : r.body.length = bodySize := by simp [body, bodySize]

theorem length_encode (r : Request) : r.encode.length = 38 := by
  simp [encode, Frame.length_encode, length_body, Frame.headerSize, bodySize]

end Request

end BlockAccess.Wire
