import BlockAccess.Journal
import BlockAccess.Files.Store

/-!
# Reading files

A file that is opened for reading is a `ReadStream`: a node, and how far it was read.  The bytes are
those of the node at the time of reading, so whatever happens to a file is noticed by the streams
that are open on it.  There is one exception.  Files are fetched in pieces, and what was fetched
beyond the bytes that were asked for stays with the stream, which hands it out later without looking
at the file again.

The functions of the second half do what the first half and the store describe to any state that
keeps files, and enter what went wrong into its journal.
-/

namespace BlockAccess.Files

/-- The size of the pieces in which files are read. -/
def pieceSize : Nat := 4096

/-- Why an open file cannot be moved to an offset, if it cannot; files can be up to a limit.  The
limit does not hold for directories, where it is enough that the offset is none below zero.  A
device takes every offset, but where a byte can be read, minus one is taken for a failure. -/
def Node.obstacle? (limit : Nat) (offset : UInt64) : Node → Option Refusal
  | file _ => if limit < offset.toNat then some .invalid else none
  | device d => if d.givesZeros && offset + 1 == 0 then some .unexplained else none
  | directory .. => if offset.toInt64 < 0 then some .invalid else none

/-- A place in a file.  What is behind it depends on what the file has by then.  The bytes behind it
in the contents that were seen last are kept at hand, so that nobody goes through a file from its
start for every piece of it. -/
structure Place where
  offset : Nat
  /-- The contents that were seen last. -/
  seen : Bytes := []
  behind : Bytes := seen.drop offset
  behind_eq : behind = seen.drop offset := by rfl
  deriving DecidableEq, Repr

namespace Place

/-- A place at which nobody looked yet. -/
def ofOffset (offset : Nat) : Place := { offset }

/-- The bytes behind the place in a file that has these contents. -/
def rest (p : Place) (contents : Bytes) : Bytes :=
  match withPtrEqDecEq p.seen contents fun _ => inferInstance with
  | .isTrue _ => p.behind
  | .isFalse _ => contents.drop p.offset

/-- It makes no difference what was seen before. -/
theorem rest_eq (p : Place) (contents : Bytes) : p.rest contents = contents.drop p.offset := by
  unfold rest
  split
  · next h _ =>
    rw [p.behind_eq, h]
  · rfl

/-- The place so many bytes further on in a file that has these contents. -/
def advance (p : Place) (contents : Bytes) (n : Nat) : Place where
  offset := p.offset + n
  seen := contents
  behind := (p.rest contents).drop n
  behind_eq := by rw [rest_eq, List.drop_drop]

end Place

/-- A file opened for reading. -/
structure ReadStream where
  /-- The node that the path led to when the file was opened. -/
  node : Nat
  /-- The place in the file from which the next bytes are fetched. -/
  place : Place := .ofOffset 0
  /-- The bytes that were fetched and have not been handed out. -/
  ahead : Bytes := []
  /-- Whether the end of the file was found while fetching. -/
  ended : Bool := false
  /-- Whether every read falls one byte short. -/
  short : Bool := false
  /-- Why a read was refused before, the last one if there were several. -/
  refused : Option Refusal := none
  deriving DecidableEq, Repr

namespace ReadStream

/-- How many bytes are asked of the system when `n` are wanted. -/
def asked (r : ReadStream) (n : UInt64) : Nat := if r.short then n.toNat - 1 else n.toNat

/-- How many bytes of a file are to be fetched when `n` are missing.  What fills whole pieces goes
to whoever asked; the rest of it comes with a whole piece, but is given up where the end was found
before. -/
def fetchSize (r : ReadStream) (n : Nat) : Nat :=
  let whole := n - n % pieceSize
  if r.ended || whole == n then whole else whole + pieceSize

/-- The bytes of a file that are fetched when `n` are missing. -/
def fetch (r : ReadStream) (contents : Bytes) (n : Nat) : Bytes :=
  (r.place.rest contents).take (r.fetchSize n)

/-- Reads up to `n` bytes of a file that has these contents by now. -/
def readFile (r : ReadStream) (contents : Bytes) (n : Nat) : Bytes × ReadStream :=
  let missing := n - r.ahead.length
  let fetched := r.fetch contents missing
  ((r.ahead ++ fetched).take n,
    { r with
      place := r.place.advance contents fetched.length
      ahead := (r.ahead ++ fetched).drop n
      ended := r.ended || fetched.length < missing })

/-- Why `n` bytes of a directory cannot be read.  Less than a piece is never read, and more only in
whole pieces; that these would end behind the last offset of all is found first. -/
def directoryRefusal (r : ReadStream) (n : Nat) : Refusal :=
  if r.place.offset + max pieceSize (n - n % pieceSize) < 9223372036854775808 then .isDirectory
  else .invalid

/-- The refusal that stands once `n` bytes of a directory are asked for. -/
def refusal? (r : ReadStream) (n : Nat) : Option Refusal :=
  if n = 0 then r.refused else some (r.directoryRefusal n)

/-- Reads up to `n` bytes.  Gives the bytes and the refusal, if there was one.

A refusal stays with the stream: whoever does not get what he wants is told of it again, even if
nothing was asked of the system this time. -/
def read (r : ReadStream) (s : Store) (n : UInt64) : Bytes × Option Refusal × ReadStream :=
  match s.node? r.node with
  | some (.file contents) =>
    match r.readFile contents (r.asked n) with
    | (b, r) => (b, none, r)
  | some (.device d) => (if d.givesZeros then List.replicate (r.asked n) 0 else [], none, r)
  | some (.directory ..) =>
    ([], if n = 0 then none else r.refusal? (r.asked n),
      { r with refused := r.refusal? (r.asked n) })
  | none => ([], none, r)

/-- The stream moved from its start to an offset. -/
def moved (r : ReadStream) (offset : UInt64) : ReadStream :=
  { r with place := .ofOffset offset.toNat }

end ReadStream

/-- Opens a path for reading. -/
def Store.readStream (s : Store) (path : Text) : Except Refusal ReadStream :=
  match (s.openNode path .read).1 with
  | .error r => .error r
  | .ok n =>
    if (s.node? n).isNone then .error .notFound
    else .ok { node := n, short := s.shortReads.contains (Text.untilNul path) }

/-! ## On a state that keeps files -/

/-- A state that keeps files. -/
class Filed (W : Type) where
  files : W → Store
  withFiles : Store → W → W

instance : Filed Store := ⟨id, fun s _ => s⟩

variable {W : Type} [Filed W] [Journaled W]

/-- Opens a file with a lock; a lock that cannot be had is noted. -/
def openFile (path : Text) (mode : Mode) (lock : Lock) (w : W) : Except Refusal Nat × W :=
  match (Filed.files w).openFile path mode lock with
  | (.error .locked, s) =>
    (.error .locked,
      note (.lockRefused (Text.untilNul path) Refusal.locked.reason) (Filed.withFiles s w))
  | (r, s) => (r, Filed.withFiles s w)

/-- Closes a handle. -/
def closeFile (ticket : Nat) (w : W) : W :=
  Filed.withFiles ((Filed.files w).close ticket) w

/-- Opens a path for reading from its start; a refusal is noted. -/
def beginRead (path : Text) (w : W) : Option ReadStream × W :=
  match (Filed.files w).readStream path with
  | .error r => (none, note (.openFailed path r.reason) w)
  | .ok r => (some r, w)

/-- Opens a path for reading from an offset; a refusal is noted. -/
def beginReadAt (path : Text) (offset : UInt64) (w : W) : Option ReadStream × W :=
  match beginRead path w with
  | (none, w) => (none, w)
  | (some r, w) =>
    match ((Filed.files w).node? r.node).bind
        (Node.obstacle? (Filed.files w).offsetLimit offset) with
    | some refusal => (none, note (.seekFailed path offset refusal.reason) w)
    | none => (some (r.moved offset), w)

/-- Reads up to `n` bytes; a refusal is noted. -/
def ReadStream.readNoted (r : ReadStream) (n : UInt64) (w : W) : Bytes × ReadStream × W :=
  match r.read (Filed.files w) n with
  | (b, none, r) => (b, r, w)
  | (b, some refusal, r) => (b, r, note (.readFailed refusal.reason) w)

end BlockAccess.Files
