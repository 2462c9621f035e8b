import BlockAccess.Stream

/-!
# Positioned reads

A positioned read gives the bytes at a place of the block without moving the stream.  It makes a
reader of its own, pulls packets until it has what it wants or the reader is at its end, and closes
that reader.  Stream and sequential reader have no part in it, so `Stream.readAt` gives no stream
back.

If something goes wrong on the way the reader is closed too, and it is the first failure that is
told; a failure of closing is then only noted.  The bytes obtained before a failure are given as
well, for they are in the caller's hands by then.
-/

namespace BlockAccess

namespace Source

variable {W R : Type} [Journaled W]

/-- Pulls packets until `wanted` bytes are together or the reader is at its end.  `budget` empty
packets in a row are a failure, and so is a packet that is larger than what is still wanted.  The
packets obtained so far are carried along, the latest first. -/
def gather (src : Source W R) (block : UInt64) (wanted budget : Nat) (got : List Bytes) (r : R)
    (w : W) : Except Failure Unit × List Bytes × R × W :=
  if wanted = 0 then (.ok (), got, r, w)
  else
    match budget with
    | 0 => (.error (.transport (.emptyPackets block)), got, r, w)
    | budget + 1 =>
      match src.next r w with
      | (.error f, r, w) => (.error f, got, r, w)
      | (.ok none, r, w) => (.ok (), got, r, w)
      | (.ok (some p), r, w) =>
        if p.readable = 0 then
          gather src block wanted budget got r
            (src.release p (note (.emptyPacket (src.position r) block) w))
        else if wanted < p.readable then
          (.error (.transport (.overrun p.readable wanted)), got, r, src.release p w)
        else
          match p.take (UInt64.ofNat p.readable) with
          | (.error f, p) => (.error f, got, r, src.release p w)
          | (.ok b, taken) =>
            gather src block (wanted - p.readable) emptyPacketLimit (b :: got) r
              (src.release taken w)
termination_by (wanted, budget)

end Source

namespace Stream

/-- The number of bytes obtained, if there are any. -/
def countOf (b : Bytes) : Option Nat := if b.isEmpty then none else some b.length

variable {W R : Type} [Journaled W]

/-- Reads up to `count` bytes at a position of the block.  Gives their number, or none if there are
none, and the bytes obtained, which there may be even if the read failed. -/
def readAt (src : Source W R) (target : Int64) (count : UInt64) (s : Stream R) (w : W) :
    Except Failure (Option Nat) × Bytes × W :=
  if s.closed then (.error (.misuse .closedStream), [], w)
  else if count = 0 then (.ok (some 0), [], w)
  else if target < 0 || s.length ≤ target.toUInt64 then (.ok none, [], w)
  else
    match src.create target.toUInt64 count w with
    | (.error f, w) => (.error f, [], w)
    | (.ok r, w) =>
      match src.gather s.block count.toNat emptyPacketLimit [] r w with
      | (.error f, got, r, w) =>
        match src.close r w with
        | (.error g, _, w) => (.error f, got.reverse.flatten, note (.closingFailed s.block g) w)
        | (.ok (), _, w) => (.error f, got.reverse.flatten, w)
      | (.ok (), got, r, w) =>
        match src.close r w with
        | (.error f, _, w) => (.error f, got.reverse.flatten, w)
        | (.ok (), _, w) => (.ok (countOf got.reverse.flatten), got.reverse.flatten, w)

end Stream

end BlockAccess
