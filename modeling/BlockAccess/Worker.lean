import BlockAccess.Wire.Request
import BlockAccess.Wire.Response

/-!
# Workers

A worker keeps blocks and answers requests for ranges of them.  This is the other side of the
protocol, as far as a client can tell: a range is cut to what there is of the block and delivered in
packets of at most the size asked for, and an end mark follows.
-/

namespace BlockAccess

/-- The pieces of `size` bytes that some bytes are cut into, the last of which may be shorter.  The
size is at least one. -/
def pieces (size : Nat) (b : Bytes) : List Bytes :=
  match b with
  | [] => []
  | c :: r => (c :: r).take (max size 1) :: pieces size (r.drop (max size 1 - 1))
termination_by b.length
decreasing_by simp only [List.length_drop, List.length_cons]; omega

/-- The part of a block that a range covers, cut to what there is. -/
def range (block : Bytes) (offset length : UInt64) : Bytes :=
  (block.drop offset.toNat).take length.toNat

/-- A worker that keeps one block. -/
structure Worker where
  block : Bytes
  blockId : UInt64 := 0
  /-- The packet size, where it is not the one that is asked for. -/
  packetSize : Option UInt64 := none
  deriving DecidableEq, Repr

namespace Worker

/-- The responses that deliver a range. -/
def serve (w : Worker) (r : Wire.Request) : List Wire.Response :=
  let size := (w.packetSize.getD r.packetSize).toNat
  (pieces size (range w.block r.offset r.length)).map (fun b => { data := some b })
    ++ [Wire.Response.endMark]

/-- The response to a request that is taken back. -/
def cancelled : Wire.Response := { status := .cancelled }

/-- The responses to a request. -/
def answer (w : Worker) (r : Wire.Request) : List Wire.Response :=
  if r.cancel then [cancelled]
  else if r.blockId = w.blockId then w.serve r
  else
    [{ status := .notFound
       message := text "block " ++ Text.decimal r.blockId.toNat ++ text " not found" }]

/-- The bytes on the wire that answer a request. -/
def reply (w : Worker) (r : Wire.Request) : Bytes :=
  (w.answer r).flatMap fun a => (a.toFrame.toOption).getD []

end Worker

end BlockAccess
