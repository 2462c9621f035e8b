import BlockAccess.Files.Store

/-!
# Output

The bytes that the command copies go to standard output or to a file.  They are kept together and
reach the file when it is closed.

Writing can fail only on a device without room.  What is written there waits in a buffer, and
nothing is wrong until the buffer has to be emptied: when more comes than it has room for, or at
once when the buffer is empty and as much comes as it would hold.
-/

namespace BlockAccess.Command

/-- Where output goes. -/
inductive Target where
  | standard
  /-- A file opened for writing. -/
  | file (ticket : Nat)
  /-- A device that has no room, opened for writing. -/
  | full (ticket : Nat)
  deriving DecidableEq, Repr

/-- Output and what was written to it. -/
structure Output where
  target : Target
  /-- What was written, the latest first. -/
  pieces : List Bytes := []
  /-- The number of bytes waiting for a device without room. -/
  waiting : Nat := 0
  deriving DecidableEq, Repr

namespace Output

/-- The size of the buffer in front of a device. -/
def bufferSize : Nat := 4096

/-- All that was written. -/
def written (o : Output) : Bytes := o.pieces.reverse.flatten

/-- Whether a device without room takes `n` bytes more into its buffer. -/
def fits (o : Output) (n : Nat) : Bool :=
  if o.waiting = 0 then n < bufferSize else o.waiting + n ≤ bufferSize

/-- Writes some bytes, and says whether that went well. -/
def write (o : Output) (b : Bytes) : Bool × Output :=
  match o.target with
  | .full _ =>
    if o.fits b.length then (true, { o with waiting := o.waiting + b.length }) else (false, o)
  | _ => (true, { o with pieces := b :: o.pieces })

/-- Opens the output file of a path. -/
def openFile (s : Files.Store) (path : Text) : Except Files.Refusal Output × Files.Store :=
  match s.openFile path .write .none with
  | (.error r, s) => (.error r, s)
  | (.ok ticket, s) =>
    match (s.nodeOf? ticket).bind s.node? with
    | some (.device d) =>
      (.ok { target := if d.hasRoom then .file ticket else .full ticket }, s)
    | _ => (.ok { target := .file ticket }, s)

/-- Closes the output; what was written to a file is in it from then on. -/
def finish (o : Output) (s : Files.Store) : Files.Store :=
  match o.target with
  | .standard => s
  | .file ticket => (s.append ticket o.written).close ticket
  | .full ticket => s.close ticket

/-- What was written to standard output. -/
def standard (o : Output) : Bytes :=
  match o.target with
  | .standard => o.written
  | _ => []

end Output

end BlockAccess.Command
