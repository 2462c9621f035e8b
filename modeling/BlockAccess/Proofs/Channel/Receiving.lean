import BlockAccess.Channel.Framed
import BlockAccess.Proofs.Wire.Codec

/-!
# What receiving does to a connection

Of a connection only the bytes matter that have arrived and are not read, all chunks together:
`Connection.unread`.  Receiving takes some of them from the front and says how it ended, and there
are five ways for it to end.  `Received` lists them with the number of bytes that each of them
takes; a proof about receiving goes by this list and never opens the function.

Two of the five are shortages.  Then all bytes are taken, and the failure is one of the connection,
`Connection.shortage`, whatever the bytes were.

`Connection.receipts` is the record of any number of calls in a row, going on after calls that
failed.
-/

namespace BlockAccess

namespace Socket

/-- The socket with so many bytes fewer to be read. -/
def advance (n : Nat) (s : Socket) : Socket := { s with chunks := (takeBytes n s.chunks).2 }

theorem flatten_advance (n : Nat) (s : Socket) :
    (s.advance n).chunks.flatten = s.chunks.flatten.drop n :=
  (takeBytes_flatten n s.chunks).2

theorem readExactly_of_le {n : Nat} {s : Socket} (h : n ≤ s.arrived) :
    s.readExactly n = (.ok (s.chunks.flatten.take n), s.advance n) := by
  have htaken := (takeBytes_flatten n s.chunks).1
  have hlength : (takeBytes n s.chunks).1.length = n := by
    rw [htaken, List.length_take]
    exact Nat.min_eq_left h
  show (if (takeBytes n s.chunks).1.length = n then _ else _) = _
  rw [if_pos hlength, htaken]
  rfl

theorem readExactly_of_lt {n : Nat} {s : Socket} (h : s.arrived < n) :
    s.readExactly n =
      (.error (if s.reset then .reset else .ended), { s.advance n with reset := false }) := by
  have htaken := (takeBytes_flatten n s.chunks).1
  have hlength : ¬(takeBytes n s.chunks).1.length = n := by
    rw [htaken, List.length_take]
    exact Nat.ne_of_lt (Nat.lt_of_le_of_lt (Nat.min_le_right ..) h)
  show (if (takeBytes n s.chunks).1.length = n then _ else _) = _
  rw [if_neg hlength]
  by_cases hreset : s.reset = true
  · rw [if_pos hreset, if_pos hreset]
    rfl
  · rw [if_neg hreset, if_neg hreset, ← Bool.eq_false_iff.2 hreset]
    rfl

end Socket

namespace Connection

variable {W : Type} [Journaled W]

/-- The bytes that have arrived and are not read, however they are cut. -/
def unread (c : Connection) : Bytes := c.socket.chunks.flatten

/-- The failure of a call for which too few bytes arrive. -/
def shortage (c : Connection) : Failure :=
  .transport (if c.socket.reset then .receiveFailed connectionReset else .peerClosed)

/-- A connection some calls later: nothing but what is to be read has changed, and a reset may have
been told. -/
structure Later (c d : Connection) : Prop where
  isOpen : d.isOpen = c.isOpen
  peer : d.peer = c.peer
  number : d.number = c.number
  peerReads : d.socket.peerReads = c.socket.peerReads
  reset : d.socket.reset = true → c.socket.reset = true

theorem Later.trans {c d e : Connection} (h : Later c d) (h' : Later d e) : Later c e where
  isOpen := h'.isOpen.trans h.isOpen
  peer := h'.peer.trans h.peer
  number := h'.number.trans h.number
  peerReads := h'.peerReads.trans h.peerReads
  reset hreset := h.reset (h'.reset hreset)

/-- The connection with so many bytes fewer to be read. -/
def advance (n : Nat) (c : Connection) : Connection := { c with socket := c.socket.advance n }

@[simp] theorem unread_advance (n : Nat) (c : Connection) :
    (c.advance n).unread = c.unread.drop n :=
  Socket.flatten_advance ..

theorem later_advance (n : Nat) (c : Connection) : Later c (c.advance n) :=
  ⟨rfl, rfl, rfl, rfl, id⟩

theorem readExactly_of_le {n : Nat} {c : Connection} (h : n ≤ c.unread.length) (w : W) :
    c.readExactly n w = (.ok (c.unread.take n), c.advance n, w) := by
  rw [readExactly, Socket.readExactly_of_le h]
  rfl

theorem readExactly_of_lt {n : Nat} {c : Connection} (h : c.unread.length < n) (w : W) :
    ∃ d w', c.readExactly n w = (.error c.shortage, d, w') ∧ d.unread = [] ∧ Later c d := by
  have hnothing : (c.socket.advance n).chunks.flatten = [] := by
    rw [Socket.flatten_advance]
    exact List.drop_eq_nil_of_le (Nat.le_of_lt h)
  have hlater : Later c { c with socket := { c.socket.advance n with reset := false } } :=
    ⟨rfl, rfl, rfl, rfl, fun hreset => by simp at hreset⟩
  rw [readExactly, Socket.readExactly_of_lt h]
  by_cases hreset : c.socket.reset = true
  · simp only [hreset, if_true, shortage]
    exact ⟨_, _, rfl, hnothing, hlater⟩
  · simp only [hreset, shortage]
    exact ⟨_, _, rfl, hnothing, hlater⟩

end Connection

/-! ## One call -/

open Wire (Response)
open Wire.Frame (headerSize)
open Wire.Frame.Header (decode?)

/-- How receiving from some bytes can end, and how many of them it takes.  The failure `f` is the
one for bytes that run out. -/
inductive Received (f : Failure) (b : Bytes) : Except Failure Response → Nat → Prop
  /-- The bytes end before the header does. -/
  | cutHeader (hcut : b.length < headerSize) : Received f b (.error f) b.length
  /-- The header is none. -/
  | refused (hle : headerSize ≤ b.length) (hheader : decode? (b.take headerSize) = none) :
    Received f b (.error (.transport .malformedFrame)) headerSize
  /-- The header is that of a request. -/
  | unexpected {h : Wire.Frame.Header} (hle : headerSize ≤ b.length)
    (hheader : decode? (b.take headerSize) = some h) (hkind : h.kind = .request) :
    Received f b (.error (.transport (.unexpectedFrame h.kind.code))) headerSize
  /-- The bytes end before the body does. -/
  | cutBody {h : Wire.Frame.Header} (hle : headerSize ≤ b.length)
    (hheader : decode? (b.take headerSize) = some h) (hkind : h.kind = .response)
    (hcut : b.length < headerSize + h.length) : Received f b (.error f) b.length
  /-- The frame is there. -/
  | whole {h : Wire.Frame.Header} (hheader : decode? (b.take headerSize) = some h)
    (hkind : h.kind = .response) (hle : headerSize + h.length ≤ b.length) :
    Received f b (Response.decode ((b.drop headerSize).take h.length)) (headerSize + h.length)

namespace Connection

variable {W : Type} [Journaled W]

/-- Receiving on an open connection ends in one of five ways and takes so many bytes. -/
theorem receive_cases {c : Connection} (hopen : c.isOpen = true) (w : W) :
    ∃ x n d w', c.receive w = (x, d, w') ∧ Received c.shortage c.unread x n ∧
      d.unread = c.unread.drop n ∧ Later c d := by
  unfold receive
  simp only [hopen, Bool.not_true, Bool.false_eq_true, if_false]
  by_cases hcut : c.unread.length < headerSize
  · obtain ⟨d, w', hread, hnothing, hlater⟩ := readExactly_of_lt hcut w
    rw [hread]
    exact ⟨_, _, d, w', rfl, .cutHeader hcut, by rw [hnothing, List.drop_length], hlater⟩
  have hle : headerSize ≤ c.unread.length := Nat.le_of_not_lt hcut
  have hrest := unread_advance headerSize c
  have hlater := later_advance headerSize c
  rw [readExactly_of_le hle]
  dsimp only
  cases hheader : decode? (c.unread.take headerSize) with
  | none => exact ⟨_, _, _, _, rfl, .refused hle hheader, hrest, hlater⟩
  | some h =>
    obtain ⟨length, kind⟩ := h
    cases kind with
    | request => exact ⟨_, _, _, _, rfl, .unexpected hle hheader rfl, hrest, hlater⟩
    | response =>
      dsimp only
      by_cases hshort : (c.advance headerSize).unread.length < length
      · obtain ⟨d, w', hbody, hnothing, hlater'⟩ := readExactly_of_lt hshort w
        have hcut' : c.unread.length < headerSize + length := by
          rw [hrest, List.length_drop] at hshort
          omega
        rw [hbody]
        exact ⟨_, _, d, w', rfl, .cutBody hle hheader rfl hcut',
          by rw [hnothing, List.drop_length], hlater.trans hlater'⟩
      · have hfits : headerSize + length ≤ c.unread.length := by
          rw [hrest, List.length_drop] at hshort
          omega
        rw [readExactly_of_le (Nat.le_of_not_lt hshort), hrest]
        refine ⟨_, _, _, _, rfl, .whole hheader rfl hfits, ?_,
          hlater.trans (later_advance length _)⟩
        rw [unread_advance, hrest, List.drop_drop]

/-! ## Calls in a row -/

/-- A call and the connection as it was before. -/
structure Receipt where
  before : Connection
  result : Except Failure Response

/-- So many calls in a row, the first one first, going on after failures. -/
def receipts : Nat → Connection → W → List Receipt
  | 0, _, _ => []
  | k + 1, c, w =>
    { before := c, result := (c.receive w).1 } ::
      receipts k (c.receive w).2.1 (c.receive w).2.2

theorem receipts_succ {c d : Connection} {w w' : W} {x : Except Failure Response}
    (h : c.receive w = (x, d, w')) (k : Nat) :
    receipts (k + 1) c w = ⟨c, x⟩ :: receipts k d w' := by
  rw [receipts, h]

end Connection

end BlockAccess
