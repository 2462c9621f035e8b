import BlockAccess.Command.Output
import BlockAccess.Stream.Positioned
import BlockAccess.Stream.Progress

/-!
# Copying a block

A block is copied from its stream to the output piece by piece until the stream is at its end, or a
range of it is copied by one positioned read.  The functions say whether all went well; what they
have to tell goes to the journal.  A failure of the stream is theirs too and is told by whoever
called.
-/

namespace BlockAccess.Command

/-- The most bytes that are read at once. -/
def pieceSize : UInt64 := 65536

variable {W R : Type} [Journaled W]

/-- Copies to the end of the stream.  Gives the number of bytes, counting on from `total`, or none
if the output did not take them. -/
def copyPieces (src : Source W R) (sup : src.Supply) (total : Nat) (o : Output) (s : Stream R)
    (w : W) : Except Failure (Option Nat) × Output × Stream R × W :=
  match _h : s.fetch src pieceSize w with
  | (.error f, s, w) => (.error f, o, s, w)
  | (.ok none, s, w) => (.ok (some total), o, s, w)
  | (.ok (some b), s', w) =>
    match o.write b with
    | (false, o) =>
      (.ok none, o, s', note (.writeFailed Files.Refusal.noSpace.reason) w)
    | (true, o) => copyPieces src sup (total + b.length) o s' w
termination_by (if s.reader.isSome then 0 else 1, s.weight sup)
decreasing_by
  have hlt := Stream.weight_fetch sup (by decide) _h
  by_cases hs : s.reader.isSome
  · simp only [hs, hlt.1, if_true]
    exact Prod.Lex.right _ (hlt.2 hs)
  · simp only [hs, hlt.1, if_true]
    exact Prod.Lex.left _ _ (by decide)

/-- Copies a whole block. -/
def copyBlock (src : Source W R) (sup : src.Supply) (o : Output) (s : Stream R) (w : W) :
    Except Failure Bool × Output × Stream R × W :=
  match copyPieces src sup 0 o s w with
  | (.error f, o, s, w) => (.error f, o, s, w)
  | (.ok none, o, s, w) => (.ok false, o, s, w)
  | (.ok (some n), o, s, w) =>
    (.ok true, o, s, note (.blockCopied n s.block src.shortCircuit) w)

/-- Copies a range of a block. -/
def copyRange (src : Source W R) (offset length : UInt64) (o : Output) (s : Stream R) (w : W) :
    Except Failure Bool × Output × W :=
  match s.readAt src offset.toInt64 length w with
  | (.error f, _, w) => (.error f, o, w)
  | (.ok none, _, w) => (.ok false, o, note (.nothingToRead offset s.block) w)
  | (.ok (some n), b, w) =>
    match o.write b with
    | (false, o) => (.ok false, o, note (.writeFailed Files.Refusal.noSpace.reason) w)
    | (true, o) => (.ok true, o, note (.rangeCopied n length offset) w)

/-- Copies a range of a block if there is one to copy, or else the whole block. -/
def copyPart (src : Source W R) (sup : src.Supply) (range : Option (UInt64 × UInt64))
    (o : Output) (s : Stream R) (w : W) : Except Failure Bool × Output × Stream R × W :=
  match range with
  | none => copyBlock src sup o s w
  | some (offset, length) =>
    match copyRange src offset length o s w with
    | (result, o, w) => (result, o, s, w)

/-- Copies a block or a range of it and closes the stream.  The stream is left as it is if copying
fails. -/
def copy (src : Source W R) (sup : src.Supply) (range : Option (UInt64 × UInt64)) (o : Output)
    (s : Stream R) (w : W) : Except Failure Bool × Output × W :=
  match copyPart src sup range o s w with
  | (.error f, o, _, w) => (.error f, o, w)
  | (.ok success, o, s, w) =>
    match s.close src w with
    | (.error f, _, w) => (.error f, o, w)
    | (.ok (), _, w) => (.ok success, o, w)

end BlockAccess.Command
