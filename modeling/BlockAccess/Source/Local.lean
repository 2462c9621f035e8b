import BlockAccess.Files.ReadStream
import BlockAccess.Offset
import BlockAccess.Source

/-!
# Local blocks

A block that the worker of this host keeps in a file can be read from that file.  Opening such a
block pins it: a shared lock is taken on the file and held until the source is closed, so nobody
gets an exclusive lock on it in the meantime.  Every reader opens the file anew and does not lock
it.

The length of the file is taken when the block is opened.  A range is cut to it, and a file that has
become shorter since then, also under a reader that is open, is found out by a packet that cannot be
read in full.
-/

namespace BlockAccess

open Files (Filed)

/-- A local block, opened and pinned. -/
structure LocalBlock where
  address : Address
  blockId : UInt64
  packetSize : UInt64
  path : Text
  /-- The length of the file when it was opened. -/
  length : UInt64
  /-- The handle that holds the lock. -/
  pin : Nat
  deriving DecidableEq, Repr

/-- A reader for a range of a local block. -/
structure LocalReader where
  /-- The file, until the reader is closed. -/
  stream : Option Files.ReadStream
  position : UInt64
  /-- The end of the range. -/
  stop : UInt64
  packetSize : UInt64
  deriving DecidableEq, Repr

namespace LocalReader

variable {W : Type} [Filed W] [Journaled W]

/-- The size of the next packet, short of the end. -/
def nextSize (r : LocalReader) : UInt64 := min r.packetSize (r.stop - r.position)

theorem nextSize_le (r : LocalReader) : r.nextSize ≤ r.stop - r.position := by
  rw [UInt64.le_iff_toNat_le, nextSize, Offset.toNat_min]
  exact Nat.min_le_right ..

/-- The next packet: a full one, or what is left of the range.  If the file does not deliver it in
full the reader stays where it is. -/
def next (r : LocalReader) (w : W) : Except Failure (Option Packet) × LocalReader × W :=
  match r.stream with
  | none => (.ok none, r, w)
  | some file =>
    if r.stop ≤ r.position then (.ok none, r, w)
    else
      match file.readNoted r.nextSize w with
      | (b, file, w) =>
        if b.length = r.nextSize.toNat then
          (.ok (some (Packet.ofBytes b)),
            { r with stream := some file, position := r.position + r.nextSize }, w)
        else
          (.error (.transport (.shortRead r.nextSize r.position)), { r with stream := some file },
            note (.shortRead r.position b.length r.nextSize) w)

/-- Closes the reader. -/
def close (r : LocalReader) (w : W) : Except Failure Unit × LocalReader × W :=
  (.ok (), { r with stream := none }, w)

end LocalReader

namespace LocalBlock

variable {W : Type} [Filed W] [Journaled W]

/-- Opens and pins the block that is kept at a path. -/
def acquire (address : Address) (blockId packetSize : UInt64) (path : Text) (w : W) :
    Except Failure LocalBlock × W :=
  if packetSize = 0 then (.error (.misuse .packetSizeZero), w)
  else if ((Filed.files w).contents? path).isNone then
    (.error (.transport (.blockMissing blockId path)), note (.blockMissing blockId path address) w)
  else
    match Files.openFile path .read .shared w with
    | (.error _, w) => (.error (.transport (.blockLocked blockId path)), w)
    | (.ok pin, w) =>
      let length := UInt64.ofNat (((Filed.files w).contents? path).getD []).length
      (.ok { address, blockId, packetSize, path, length, pin }, w)

/-- The end of a range, cut to the length of the file. -/
def stop (b : LocalBlock) (offset length : UInt64) : UInt64 :=
  offset + min length (b.length - min offset b.length)

/-- Makes a reader for a range. -/
def create (b : LocalBlock) (offset length : UInt64) (w : W) : Except Failure LocalReader × W :=
  match Files.beginReadAt b.path offset w with
  | (none, w) => (.error (.transport (.blockUnopened b.blockId b.path)), w)
  | (some file, w) =>
    (.ok
      { stream := some file, position := offset, stop := b.stop offset length
        packetSize := b.packetSize }, w)

/-- Gives up the lock on the file.  Doing so again does nothing. -/
def shutDown (b : LocalBlock) (w : W) : Except Failure Unit × W :=
  if (Filed.files w).isOpen b.pin then
    (.ok (), Files.closeFile b.pin (note (.unpinning b.blockId b.path) w))
  else (.ok (), w)

/-- A local block as a source of packets. -/
def source (b : LocalBlock) : Source W LocalReader where
  shortCircuit := true
  create := b.create
  next := LocalReader.next
  position := LocalReader.position
  close := LocalReader.close
  release _ w := w
  shutDown := b.shutDown

/-- A reader has at most the bytes of its range left. -/
def supply (b : LocalBlock) : (b.source : Source W LocalReader).Supply where
  left r := (r.stop - r.position).toNat
  left_next := by
    intro r w p r' w' h
    simp only [source, LocalReader.next] at h
    split at h
    · simp at h
    next file _ =>
    split at h
    · simp at h
    next hlt =>
    split at h
    · next hlen =>
      simp only [Prod.mk.injEq, Except.ok.injEq, Option.some.injEq] at h
      obtain ⟨rfl, rfl, -⟩ := h
      have hpos : r.position ≤ r.stop :=
        UInt64.le_iff_toNat_le.2 (Nat.le_of_lt (UInt64.not_le.1 hlt))
      rw [Offset.toNat_sub_add (LocalReader.nextSize_le r) hpos, Packet.readable_ofBytes, hlen]
      have hle := UInt64.le_iff_toNat_le.1 (LocalReader.nextSize_le r)
      omega
    · simp at h

end LocalBlock

end BlockAccess
